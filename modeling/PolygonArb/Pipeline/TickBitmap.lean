import Mathlib.Tactic.Linarith
import PolygonArb.Core.Math.TickMath
import PolygonArb.Core.Types
import PolygonArb.Lib.CappedWalk
import PolygonArb.Lib.CenterOut

/-!
# Tick bitmaps

`pipeline/tick_fetch.rs`: the ticks of a concentrated-liquidity pool are the set bits of bitmap words.  The
words of a window around the current tick are visited from the centre outwards, the bits of a word upwards,
and a read is queued for every set bit, until the budget of reads that the pools share is used up.

The loop over the bits is `CappedWalk.walk` over the marks of a window (`readWords_eq_walk`), so the reads of
all pools are the first `maxClTickInfoReads` of them (`calls_readTurns`).
-/

namespace PolygonArb

open Word CappedWalk CenterOut

/-- Cap of the tick reads of one pass (`MAX_CL_TICK_INFO_READS`); the loops take it as `budget`. -/
def maxClTickInfoReads : ℕ := 2048

/-! ## Words and bits -/

/-- `floor(tick / spacing)`. -/
def compressClTick (tick spacing : ℤ) : ℤ := tick / max spacing 1

def clTickBitmapCenterWord (tick spacing : ℤ) : ℤ := compressClTick tick spacing >>> (8 : ℕ)

def clTickFromBitmapBit (word : ℤ) (bit : ℕ) (spacing : ℤ) : Option ℤ :=
  let compressed := saturateI32 (saturateI32 (word * 256) + bit)
  let tick := saturateI32 (compressed * max spacing 1)
  if minTick ≤ tick ∧ tick ≤ maxTick then some tick else none

/-- Ascending by tick, of equal ones the first. -/
def finalizeClTicks (ticks : List V3Tick) : List V3Tick :=
  (ticks.mergeSort fun a b => a.tick ≤ b.tick).eraseRepsBy fun a b => a.tick == b.tick

def clBitmapCenterOutOffsets (wordCount : ℕ) : List ℕ := centerOut wordCount

/-- The words `word_min..=word_max`. -/
def wordSpan (wordMin wordMax : ℤ) : List ℤ :=
  (List.range (wordMax - wordMin + 1).toNat).map fun k : ℕ => wordMin + k

/-- The words from `centre - range` to `centre + range`. -/
def windowWords (centre range : ℤ) : List ℤ := wordSpan (centre - range) (centre + range)

lemma windowWords_eq (centre range : ℤ) :
    windowWords centre range = (List.range (2 * range + 1).toNat).map fun k : ℕ => centre - range + k := by
  have hcount : centre + range - (centre - range) + 1 = 2 * range + 1 := by omega
  rw [windowWords, wordSpan, hcount]

/-- The ticks of a bitmap word. -/
def wordTicks (word spacing : ℤ) (bitmap : U256) : List ℤ :=
  (List.range 256).filterMap fun bit =>
    if bitmap.getLsbD bit then clTickFromBitmapBit word bit spacing else none

section Finalize

variable {α : Type*} {r : α → α → Bool} {a : α} {xs acc : List α}

lemma loop_eraseRepsBy_of_pairwise (h : (a :: xs).Pairwise fun a b => r a b = false) :
    List.eraseRepsBy.loop r a xs acc = acc.reverse ++ a :: xs := by
  induction xs generalizing a acc with
  | nil => simp [List.eraseRepsBy.loop]
  | cons b xs ih =>
      rw [List.pairwise_cons] at h
      rw [List.eraseRepsBy.loop, h.1 b List.mem_cons_self]
      dsimp only
      rw [ih h.2]
      simp

lemma loop_eraseRepsBy_ne_nil : List.eraseRepsBy.loop r a xs acc ≠ [] := by
  induction xs generalizing a acc with
  | nil => simp [List.eraseRepsBy.loop]
  | cons b xs ih =>
      rw [List.eraseRepsBy.loop]
      split
      · exact ih
      · exact ih

/-- A list of different ticks is sorted and nothing else. -/
lemma finalizeClTicks_of_nodup {ticks : List V3Tick} (h : (ticks.map V3Tick.tick).Nodup) :
    (finalizeClTicks ticks).Pairwise (fun a b => a.tick < b.tick) ∧
      ∀ v, v ∈ finalizeClTicks ticks ↔ v ∈ ticks := by
  have hperm : (ticks.mergeSort fun a b => a.tick ≤ b.tick).Perm ticks := List.mergeSort_perm _ _
  have hsorted : (ticks.mergeSort fun a b => a.tick ≤ b.tick).Pairwise fun a b => a.tick < b.tick := by
    have hle := @List.pairwise_mergeSort _ (fun a b : V3Tick => a.tick ≤ b.tick)
      (fun a b c hab hbc => by simp only [decide_eq_true_eq] at hab hbc ⊢; omega)
      (fun a b => by simp only [Bool.or_eq_true, decide_eq_true_eq]; omega) ticks
    have hne : (ticks.mergeSort fun a b => a.tick ≤ b.tick).Pairwise fun a b => a.tick ≠ b.tick :=
      List.pairwise_map.mp ((hperm.map V3Tick.tick).nodup_iff.mpr h)
    refine (hle.and hne).imp fun {a b} hab => ?_
    simp only [decide_eq_true_eq] at hab
    omega
  have hsame : finalizeClTicks ticks = ticks.mergeSort fun a b => a.tick ≤ b.tick := by
    rw [finalizeClTicks]
    cases hlist : ticks.mergeSort fun a b => a.tick ≤ b.tick with
    | nil => rfl
    | cons a rest =>
        rw [hlist] at hsorted
        refine (loop_eraseRepsBy_of_pairwise (hsorted.imp fun {a b} hab => ?_)).trans rfl
        simp only [beq_eq_false_iff_ne, ne_eq]
        omega
  rw [hsame]
  exact ⟨hsorted, fun v => hperm.mem_iff⟩

lemma finalizeClTicks_eq_nil {ticks : List V3Tick} : finalizeClTicks ticks = [] ↔ ticks = [] := by
  have hperm : (ticks.mergeSort fun a b => a.tick ≤ b.tick).Perm ticks := List.mergeSort_perm _ _
  rw [finalizeClTicks]
  cases hlist : ticks.mergeSort fun a b => a.tick ≤ b.tick with
  | nil =>
      rw [hlist] at hperm
      simp [hperm.nil_eq.symm]
      rfl
  | cons a rest =>
      rw [hlist] at hperm
      have hne : ticks ≠ [] := by
        rintro rfl
        exact absurd hperm.eq_nil (by simp)
      simp only [hne, iff_false]
      exact loop_eraseRepsBy_ne_nil

end Finalize

section Bits

variable {word spacing tick t x : ℤ} {bit bit' : ℕ} {bitmap : U256}

lemma saturateI32_mul_le {sp : ℤ} (hsp : 1 ≤ sp) (hx : maxTick < x) :
    maxTick < x * sp ∧ maxTick < saturateI32 (x * sp) := by
  simp only [maxTick] at hx ⊢
  have hgrow : x * 1 ≤ x * sp := mul_le_mul_of_nonneg_left hsp (by omega)
  rw [saturateI32]
  omega

lemma le_saturateI32_mul {sp : ℤ} (hsp : 1 ≤ sp) (hx : x < minTick) :
    x * sp < minTick ∧ saturateI32 (x * sp) < minTick := by
  simp only [minTick] at hx ⊢
  have hgrow : x * sp ≤ x * 1 := mul_le_mul_of_nonpos_left hsp (by omega)
  rw [saturateI32]
  omega

/-- A value out of `i32` is out of the range of ticks, so saturation makes no difference. -/
lemma clTickFromBitmapBit_eq_some (hbit : bit < 256) : clTickFromBitmapBit word bit spacing = some t ↔
    t = (word * 256 + bit) * max spacing 1 ∧ minTick ≤ t ∧ t ≤ maxTick := by
  have hsp : 1 ≤ max spacing 1 := le_max_right ..
  have hexact : ∀ c, saturateI32 (saturateI32 (word * 256) + bit) = c →
      ((minTick ≤ saturateI32 (c * max spacing 1) ∧ saturateI32 (c * max spacing 1) ≤ maxTick) ∧
        saturateI32 (c * max spacing 1) = t ↔
      t = (word * 256 + bit) * max spacing 1 ∧ minTick ≤ t ∧ t ≤ maxTick) := by
    intro c hc
    rcases lt_or_ge maxTick c with hhigh | hle
    · have hword : maxTick < word * 256 + bit := by
        simp only [saturateI32, maxTick] at hc hhigh ⊢
        omega
      have h := saturateI32_mul_le hsp hhigh
      have h' := saturateI32_mul_le hsp hword
      constructor
      · rintro ⟨⟨-, hin⟩, -⟩
        omega
      · rintro ⟨rfl, -, hin⟩
        omega
    · rcases lt_or_ge c minTick with hlow | hge
      · have hword : word * 256 + bit < minTick := by
          simp only [saturateI32, minTick] at hc hlow ⊢
          omega
        have h := le_saturateI32_mul hsp hlow
        have h' := le_saturateI32_mul hsp hword
        constructor
        · rintro ⟨⟨hin, -⟩, -⟩
          omega
        · rintro ⟨rfl, hin, -⟩
          omega
      · have hword : c = word * 256 + bit := by
          simp only [saturateI32, minTick, maxTick] at hc hge hle
          omega
        rw [← hword]
        simp only [saturateI32, minTick, maxTick]
        constructor
        · rintro ⟨⟨hlow, hhigh⟩, rfl⟩
          omega
        · rintro ⟨rfl, hlow, hhigh⟩
          omega
  rw [clTickFromBitmapBit]
  rw [Option.ite_none_right_eq_some, Option.some_inj]
  exact hexact _ rfl

lemma mem_wordTicks : t ∈ wordTicks word spacing bitmap ↔ ∃ bit < 256, bitmap.getLsbD bit = true ∧
    t = (word * 256 + bit) * max spacing 1 ∧ minTick ≤ t ∧ t ≤ maxTick := by
  rw [wordTicks, List.mem_filterMap]
  constructor
  · rintro ⟨bit, hbit, ht⟩
    rw [List.mem_range] at hbit
    rw [Option.ite_none_right_eq_some, clTickFromBitmapBit_eq_some hbit] at ht
    exact ⟨bit, hbit, ht⟩
  · rintro ⟨bit, hbit, ht⟩
    refine ⟨bit, List.mem_range.mpr hbit, ?_⟩
    rw [Option.ite_none_right_eq_some, clTickFromBitmapBit_eq_some hbit]
    exact ht

/-- A word that no 16-bit index names has no ticks. -/
lemma wordTicks_eq_nil (h : ¬(-2 ^ 15 ≤ word ∧ word < 2 ^ 15)) : wordTicks word spacing bitmap = [] := by
  rw [List.eq_nil_iff_forall_not_mem]
  intro t ht
  rcases mem_wordTicks.mp ht with ⟨bit, hbit, -, rfl, hlow, hhigh⟩
  have hsp : 1 ≤ max spacing 1 := le_max_right ..
  rcases lt_or_ge word 0 with hneg | hpos
  · have hle := (le_saturateI32_mul hsp (x := word * 256 + bit) (by simp only [minTick]; omega)).1
    omega
  · have hge := (saturateI32_mul_le hsp (x := word * 256 + bit) (by simp only [maxTick]; omega)).1
    omega

/-- The ticks of two words, or of two bits of one, follow the words and the bits. -/
lemma tick_lt_tick {word' : ℤ} (h : word * 256 + bit < word' * 256 + bit') :
    (word * 256 + bit) * max spacing 1 < (word' * 256 + bit') * max spacing 1 :=
  mul_lt_mul_of_pos_right h (lt_of_lt_of_le one_pos (le_max_right ..))

lemma sorted_wordTicks (word spacing : ℤ) (bitmap : U256) :
    (wordTicks word spacing bitmap).Pairwise (· < ·) := by
  rw [wordTicks, List.pairwise_filterMap]
  refine List.Pairwise.imp_of_mem ?_ List.pairwise_lt_range
  intro bit bit' hbit hbit' hlt t ht t' ht'
  rw [List.mem_range] at hbit hbit'
  rw [Option.ite_none_right_eq_some, clTickFromBitmapBit_eq_some hbit] at ht
  rw [Option.ite_none_right_eq_some, clTickFromBitmapBit_eq_some hbit'] at ht'
  rw [ht.2.1, ht'.2.1]
  exact tick_lt_tick (by omega)

/-- The word of a tick: the current one holds it, the ticks of others lie on their side of it. -/
lemma compressClTick_bounds (tick spacing : ℤ) :
    clTickBitmapCenterWord tick spacing * 256 ≤ compressClTick tick spacing ∧
      compressClTick tick spacing < clTickBitmapCenterWord tick spacing * 256 + 256 ∧
      compressClTick tick spacing * max spacing 1 ≤ tick ∧
      tick < (compressClTick tick spacing + 1) * max spacing 1 := by
  have hsp : 0 < max spacing 1 := lt_of_lt_of_le one_pos (le_max_right ..)
  have hdiv := Int.emod_add_ediv_mul tick (max spacing 1)
  have hmod := Int.emod_nonneg tick hsp.ne'
  have hlt := Int.emod_lt_of_pos tick hsp
  rw [clTickBitmapCenterWord, Int.shiftRight_eq_div_pow, compressClTick]
  refine ⟨by omega, by omega, by linarith, by linarith⟩

lemma wordTicks_lt (hword : word < clTickBitmapCenterWord tick spacing)
    (ht : t ∈ wordTicks word spacing bitmap) : t < tick := by
  rcases mem_wordTicks.mp ht with ⟨bit, hbit, -, rfl, -, -⟩
  rcases compressClTick_bounds tick spacing with ⟨hlow, -, hle, -⟩
  have hlt : (word * 256 + bit) * max spacing 1 < compressClTick tick spacing * max spacing 1 :=
    mul_lt_mul_of_pos_right (by omega) (lt_of_lt_of_le one_pos (le_max_right ..))
  omega

lemma lt_wordTicks (hword : clTickBitmapCenterWord tick spacing < word)
    (ht : t ∈ wordTicks word spacing bitmap) : tick < t := by
  rcases mem_wordTicks.mp ht with ⟨bit, hbit, -, rfl, -, -⟩
  rcases compressClTick_bounds tick spacing with ⟨-, hhigh, -, hlt⟩
  have hle : (compressClTick tick spacing + 1) * max spacing 1 ≤ (word * 256 + bit) * max spacing 1 :=
    mul_le_mul_of_nonneg_right (by omega) (le_trans zero_le_one (le_max_right ..))
  omega

end Bits

/-! ## The reads of a pass -/

/-- The words of one pool, and what was answered for each of them. -/
structure PoolWindow (κ : Type) where
  owner : κ
  spacing : ℤ
  wordMin : ℤ
  wordCount : ℕ
  words : ℕ → Option U256

/-- How the loop over the words of a pool ends. -/
structure WordsRead (κ : Type) where
  calls : List (κ × ℤ)
  complete : Bool
  capped : Bool

/-- How the turn of a pool ends: with no budget left for it, in the middle of its words, or after them. -/
inductive TurnEnd
  | skipped
  | capped
  | done (complete : Bool)
  deriving DecidableEq

/-- A turn that the budget cut short. -/
def TurnEnd.isCapped : TurnEnd → Bool
  | .done _ => false
  | _ => true

section Loop

variable {κ : Type} (budget : ℕ)

/-- The loop over the bits of a word; answers whether the budget stopped it. -/
def readBits (owner : κ) (word spacing : ℤ) (bitmap : U256) :
    List ℕ → List (κ × ℤ) → List (κ × ℤ) × Bool
  | [], calls => (calls, false)
  | bit :: bits, calls =>
      if budget ≤ calls.length then (calls, true)
      else if bitmap.getLsbD bit = false then readBits owner word spacing bitmap bits calls
      else
        readBits owner word spacing bitmap bits
          (calls ++ ((clTickFromBitmapBit word bit spacing).map fun tick => (owner, tick)).toList)

/-- The loop over the words: one that was not answered leaves the pool incomplete. -/
def readWords (window : PoolWindow κ) : List ℕ → List (κ × ℤ) → Bool → WordsRead κ
  | [], calls, complete => ⟨calls, complete, false⟩
  | offset :: offsets, calls, complete =>
      match window.words offset with
      | none => readWords window offsets calls false
      | some bitmap =>
          match readBits budget window.owner (window.wordMin + offset) window.spacing bitmap (List.range 256)
              calls with
          | (calls, true) => ⟨calls, complete, true⟩
          | (calls, false) => readWords window offsets calls complete

def readTurn (window : PoolWindow κ) (calls : List (κ × ℤ)) : List (κ × ℤ) × TurnEnd :=
  if budget ≤ calls.length then (calls, .skipped)
  else
    let read := readWords budget window (clBitmapCenterOutOffsets window.wordCount) calls true
    (read.calls, if read.capped then .capped else .done read.complete)

/-- The loop of the wide pass, where a pool has no check of its own. -/
def readOnce : List (PoolWindow κ) → List (κ × ℤ) → List (κ × ℤ)
  | [], calls => calls
  | window :: windows, calls =>
      readOnce windows (readWords budget window (clBitmapCenterOutOffsets window.wordCount) calls true).calls

/-- The pools in turn. -/
def readTurns : List (PoolWindow κ) → List (κ × ℤ) → List (κ × ℤ) × List (κ × TurnEnd)
  | [], calls => (calls, [])
  | window :: windows, calls =>
      let (calls, ended) := readTurn budget window calls
      let (calls, turns) := readTurns windows calls
      (calls, (window.owner, ended) :: turns)

namespace PoolWindow

variable (window : PoolWindow κ)

/-- The ticks of a word of the window; none where the word was not answered. -/
def block (offset : ℕ) : List ℤ :=
  match window.words offset with
  | none => []
  | some bitmap => wordTicks (window.wordMin + offset) window.spacing bitmap

/-- The ticks of the window, in the order they are visited. -/
def ticks : List ℤ := (clBitmapCenterOutOffsets window.wordCount).flatMap window.block

/-- Every word of the window was answered. -/
def Answered : Prop := ∀ offset < window.wordCount, (window.words offset).isSome

def wordMarks (offset : ℕ) : List (Option (κ × ℤ)) :=
  match window.words offset with
  | none => []
  | some bitmap => (List.range 256).map fun bit =>
      if bitmap.getLsbD bit then
        (clTickFromBitmapBit (window.wordMin + offset) bit window.spacing).map fun t => (window.owner, t)
      else none

/-- Where the loop checks the budget, with the read that it queues there: at the start of the pool's turn, and
at every bit of an answered word. -/
def marks : List (Option (κ × ℤ)) :=
  none :: (clBitmapCenterOutOffsets window.wordCount).flatMap window.wordMarks

end PoolWindow

section Spec

variable {budget : ℕ} {window : PoolWindow κ} {windows : List (PoolWindow κ)} {calls : List (κ × ℤ)} {owner : κ}
  {word spacing : ℤ} {bitmap : U256}

lemma readBits_eq_walk (bits : List ℕ) (calls : List (κ × ℤ)) :
    readBits budget owner word spacing bitmap bits calls =
      walk budget (bits.map fun bit =>
        if bitmap.getLsbD bit then (clTickFromBitmapBit word bit spacing).map fun t => (owner, t)
        else none) calls := by
  induction bits generalizing calls with
  | nil => rfl
  | cons bit bits ih =>
      rcases Nat.lt_or_ge calls.length budget with hlt | hfull
      · rw [readBits, if_neg (Nat.not_le.mpr hlt), List.map_cons, walk_cons_of_lt hlt]
        cases hset : bitmap.getLsbD bit with
        | false => simp [ih]
        | true => simp [ih]
      · rw [readBits, if_pos hfull, walk_of_full hfull]
        simp

section Words

variable {offset : ℕ} {offsets : List ℕ} {complete : Bool} {read : List (κ × ℤ)}

lemma readWords_of_none (h : window.words offset = none) :
    readWords budget window (offset :: offsets) calls complete = readWords budget window offsets calls false := by
  rw [readWords, h]

lemma walk_wordMarks (h : window.words offset = some bitmap) :
    walk budget (window.wordMarks offset) calls =
      readBits budget window.owner (window.wordMin + offset) window.spacing bitmap (List.range 256) calls := by
  rw [PoolWindow.wordMarks, h, readBits_eq_walk]

lemma readWords_of_stopped (h : window.words offset = some bitmap)
    (hbits : walk budget (window.wordMarks offset) calls = (read, true)) :
    readWords budget window (offset :: offsets) calls complete = ⟨read, complete, true⟩ := by
  rw [walk_wordMarks h] at hbits
  simp only [readWords, h, hbits]

lemma readWords_of_read (h : window.words offset = some bitmap)
    (hbits : walk budget (window.wordMarks offset) calls = (read, false)) :
    readWords budget window (offset :: offsets) calls complete = readWords budget window offsets read complete := by
  rw [walk_wordMarks h] at hbits
  simp only [readWords, h, hbits]

end Words

lemma readWords_eq_walk (offsets : List ℕ) (calls : List (κ × ℤ)) (complete : Bool) :
    (readWords budget window offsets calls complete).calls =
        (walk budget (offsets.flatMap window.wordMarks) calls).1 ∧
      (readWords budget window offsets calls complete).capped =
        (walk budget (offsets.flatMap window.wordMarks) calls).2 ∧
      ((readWords budget window offsets calls complete).capped = false →
        ((readWords budget window offsets calls complete).complete = true ↔
          complete = true ∧ ∀ offset ∈ offsets, (window.words offset).isSome)) := by
  induction offsets generalizing calls complete with
  | nil => simp [readWords]
  | cons offset offsets ih =>
      rw [List.flatMap_cons, walk_append]
      cases hword : window.words offset with
      | none =>
          rcases ih calls false with ⟨hcalls, hcapped, hcomplete⟩
          have hmarks : window.wordMarks offset = [] := by rw [PoolWindow.wordMarks, hword]
          rw [readWords_of_none hword, hmarks, CappedWalk.walk_nil]
          refine ⟨hcalls, by simpa using hcapped, fun h => ?_⟩
          rw [hcomplete h]
          simp [hword]
      | some bitmap =>
          rcases hbits : walk budget (window.wordMarks offset) calls with ⟨read, stopped⟩
          cases stopped with
          | true =>
              have hfull : budget ≤ read.length := by
                have h := full_of_stopped (show (walk budget (window.wordMarks offset)
                  calls).2 = true by rw [hbits])
                rwa [hbits] at h
              rw [readWords_of_stopped hword hbits, walk_of_full hfull]
              exact ⟨rfl, rfl, fun h => absurd h (by simp)⟩
          | false =>
              rcases ih read complete with ⟨hcalls, hcapped, hcomplete⟩
              rw [readWords_of_read hword hbits]
              refine ⟨hcalls, by simpa using hcapped, fun h => ?_⟩
              rw [hcomplete h]
              simp [hword]

/-- The turn of a pool. -/
lemma readTurn_eq_walk (window : PoolWindow κ) (calls : List (κ × ℤ)) :
    (readTurn budget window calls).1 = (walk budget window.marks calls).1 ∧
      ((walk budget window.marks calls).2 = true ↔
        ∀ complete, (readTurn budget window calls).2 ≠ .done complete) ∧
      ((walk budget window.marks calls).2 = false →
        ((readTurn budget window calls).2 = .done true ↔ window.Answered)) := by
  rcases Nat.lt_or_ge calls.length budget with hlt | hfull
  · rcases @readWords_eq_walk _ _ window (clBitmapCenterOutOffsets window.wordCount) calls true
      with ⟨hcalls, hcapped, hcomplete⟩
    rw [readTurn, if_neg (Nat.not_le.mpr hlt), PoolWindow.marks, walk_cons_of_lt hlt]
    simp only [Option.toList_none, List.append_nil]
    rw [← hcalls, ← hcapped]
    refine ⟨rfl, ?_, fun h => ?_⟩
    · cases (readWords budget window (clBitmapCenterOutOffsets window.wordCount) calls true).capped <;> simp
    · rw [h]
      have hiff := hcomplete h
      simp only [Bool.false_eq_true, if_false, TurnEnd.done.injEq, hiff, true_and]
      exact forall_congr' fun offset => by rw [clBitmapCenterOutOffsets, mem_centerOut]
  · rw [readTurn, if_pos hfull, walk_of_full hfull]
    simp [PoolWindow.marks]

/-- The reads of all pools are collected by one walk.  No turn is cut short and every word was answered if and
only if the walk is not stopped and every window is answered. -/
theorem readTurns_eq_walk (windows : List (PoolWindow κ)) (calls : List (κ × ℤ)) :
    (readTurns budget windows calls).1 =
        (walk budget (windows.flatMap PoolWindow.marks) calls).1 ∧
      ((walk budget (windows.flatMap PoolWindow.marks) calls).2 = true ↔
        ∃ turn ∈ (readTurns budget windows calls).2, ∀ complete, turn.2 ≠ .done complete) ∧
      ((∀ turn ∈ (readTurns budget windows calls).2, turn.2 = .done true) ↔
        (walk budget (windows.flatMap PoolWindow.marks) calls).2 = false ∧
          ∀ window ∈ windows, window.Answered) := by
  induction windows generalizing calls with
  | nil => simp [readTurns]
  | cons window windows ih =>
      rcases readTurn_eq_walk window calls with ⟨hcalls, hstopped, hdone⟩
      rcases ih (readTurn budget window calls).1 with ⟨hrest, hany, hall⟩
      simp only [readTurns, List.flatMap_cons, walk_append, List.mem_cons, exists_eq_or_imp,
        forall_eq_or_imp, Bool.or_eq_true, Bool.or_eq_false_iff]
      rw [← hcalls]
      refine ⟨hrest, ?_, ?_⟩
      · rw [hany, hstopped]
      · rw [hall]
        constructor
        · rintro ⟨hthis, hfree, hanswered⟩
          have hrun : (walk budget window.marks calls).2 = false := by
            refine Bool.eq_false_of_not_eq_true fun h => ?_
            exact hstopped.mp h true hthis
          exact ⟨⟨hrun, hfree⟩, (hdone hrun).mp hthis, hanswered⟩
        · rintro ⟨⟨hrun, hfree⟩, hthis, hanswered⟩
          exact ⟨(hdone hrun).mpr hthis, hfree, hanswered⟩

lemma reduceOption_map (owner : κ) (word spacing : ℤ) (bitmap : U256) (bits : List ℕ) :
    (bits.map fun bit => if bitmap.getLsbD bit then
        (clTickFromBitmapBit word bit spacing).map fun t => (owner, t) else none).reduceOption =
      (bits.filterMap fun bit => if bitmap.getLsbD bit then clTickFromBitmapBit word bit spacing
        else none).map fun t => (owner, t) := by
  rw [List.reduceOption, List.filterMap_map, List.map_filterMap]
  refine List.filterMap_congr fun bit _ => ?_
  simp only [Function.comp_apply, id_eq]
  split_ifs <;> rfl

lemma reduceOption_marks (window : PoolWindow κ) :
    window.marks.reduceOption = window.ticks.map fun t => (window.owner, t) := by
  rw [PoolWindow.marks, List.reduceOption_cons_of_none, PoolWindow.ticks, List.map_flatMap,
    List.reduceOption, List.filterMap_flatMap]
  refine List.flatMap_congr fun offset _ => ?_
  rw [PoolWindow.wordMarks, PoolWindow.block]
  cases window.words offset with
  | none => rfl
  | some bitmap => exact reduceOption_map window.owner _ _ bitmap (List.range 256)

/-- The reads that the windows ask for, in the order of the turns. -/
def wantedReads (windows : List (PoolWindow κ)) : List (κ × ℤ) :=
  windows.flatMap fun window => window.ticks.map fun t => (window.owner, t)

lemma reduceOption_flatMap_marks (windows : List (PoolWindow κ)) :
    (windows.flatMap PoolWindow.marks).reduceOption = wantedReads windows := by
  rw [List.reduceOption, List.filterMap_flatMap, wantedReads]
  exact List.flatMap_congr fun window _ => reduceOption_marks window

/-- The first reads that the budget has room for are queued. -/
theorem calls_readTurns (budget : ℕ) (windows : List (PoolWindow κ)) :
    (readTurns budget windows []).1 = (wantedReads windows).take budget := by
  rw [(readTurns_eq_walk windows []).1, walk_fst (Nat.zero_le _), reduceOption_flatMap_marks,
    List.nil_append]

/-- A pool that finds the budget used up queues nothing, with a check of its own or without. -/
lemma readOnce_eq_readTurns (windows : List (PoolWindow κ)) (calls : List (κ × ℤ)) :
    readOnce budget windows calls = (readTurns budget windows calls).1 := by
  induction windows generalizing calls with
  | nil => rfl
  | cons window windows ih =>
      have hturn : (readWords budget window (clBitmapCenterOutOffsets window.wordCount) calls true).calls =
          (readTurn budget window calls).1 := by
        rw [(readWords_eq_walk _ calls true).1, (readTurn_eq_walk window calls).1, PoolWindow.marks]
        rcases Nat.lt_or_ge calls.length budget with hlt | hfull
        · rw [walk_cons_of_lt hlt, Option.toList_none, List.append_nil]
        · rw [walk_of_full hfull, walk_of_full hfull]
      rw [readOnce, readTurns, hturn, ih]

/-- The budget is used up with a check still to come. -/
def Overruns (budget : ℕ) (windows : List (PoolWindow κ)) : Prop :=
  windows ≠ [] ∧ budget ≤ (windows.flatMap PoolWindow.marks).dropLast.reduceOption.length

lemma overruns_iff : Overruns budget windows ↔
    (walk budget (windows.flatMap PoolWindow.marks) []).2 = true := by
  rw [walk_snd, Overruns, List.nil_append]
  refine and_congr_left fun _ => ?_
  cases windows with
  | nil => simp
  | cons window windows => simp [PoolWindow.marks]

/-- The turns all end well if and only if every word was answered and the budget lasts. -/
theorem readTurns_done_iff :
    (∀ turn ∈ (readTurns budget windows []).2, turn.2 = .done true) ↔
      ¬Overruns budget windows ∧ ∀ window ∈ windows, window.Answered := by
  rw [(readTurns_eq_walk windows []).2.2, overruns_iff, Bool.not_eq_true]

lemma length_wantedReads (windows : List (PoolWindow κ)) :
    (wantedReads windows).length = (windows.flatMap PoolWindow.ticks).length := by
  rw [wantedReads, List.length_flatMap, List.length_flatMap]
  simp

end Spec

section Owner

variable [DecidableEq κ]

/-- The ticks queued for an owner. -/
def ticksOf (calls : List (κ × ℤ)) (owner : κ) : List ℤ :=
  calls.filterMap fun call => if call.1 = owner then some call.2 else none

lemma ticksOf_append (calls calls' : List (κ × ℤ)) (owner : κ) :
    ticksOf (calls ++ calls') owner = ticksOf calls owner ++ ticksOf calls' owner := List.filterMap_append

lemma ticksOf_map_self (ticks : List ℤ) (owner : κ) :
    ticksOf (ticks.map fun t => (owner, t)) owner = ticks := by
  simp [ticksOf, List.filterMap_map]

lemma ticksOf_eq_nil {calls : List (κ × ℤ)} {owner : κ} (h : ∀ call ∈ calls, call.1 ≠ owner) :
    ticksOf calls owner = [] := by
  rw [ticksOf, List.filterMap_eq_nil_iff]
  exact fun call hcall => if_neg (h call hcall)

lemma ticksOf_wantedReads {windows : List (PoolWindow κ)} {owner : κ}
    (h : ∀ window ∈ windows, window.owner ≠ owner) (n : ℕ) :
    ticksOf ((wantedReads windows).take n) owner = [] := by
  refine ticksOf_eq_nil fun call hcall => ?_
  rcases List.mem_flatMap.mp (List.mem_of_mem_take hcall) with ⟨window, hwindow, hin⟩
  rcases List.mem_map.mp hin with ⟨t, -, rfl⟩
  exact h window hwindow

/-- A pool gets what the pools ahead of it leave of the budget. -/
theorem ticksOf_readTurns {budget : ℕ} {pre post : List (PoolWindow κ)} {window : PoolWindow κ}
    (h : ((pre ++ window :: post).map PoolWindow.owner).Nodup) :
    ticksOf (readTurns budget (pre ++ window :: post) []).1 window.owner =
      window.ticks.take (budget - (pre.flatMap PoolWindow.ticks).length) := by
  rw [List.map_append, List.map_cons, List.nodup_append, List.nodup_cons] at h
  rcases h with ⟨-, ⟨hpost, -⟩, hpre⟩
  have hsplit : wantedReads (pre ++ window :: post) = wantedReads pre ++
      ((window.ticks.map fun t => (window.owner, t)) ++ wantedReads post) := by
    simp [wantedReads]
  have hbefore : ∀ w ∈ pre, w.owner ≠ window.owner := fun w hw =>
    hpre _ (List.mem_map_of_mem hw) _ List.mem_cons_self
  have hafter : ∀ w ∈ post, w.owner ≠ window.owner := fun w hw heq =>
    hpost (heq ▸ List.mem_map_of_mem hw)
  rw [calls_readTurns, hsplit, List.take_append, List.take_append, ticksOf_append, ticksOf_append,
    ticksOf_wantedReads hbefore, ticksOf_wantedReads hafter, List.append_nil, List.nil_append,
    ← List.map_take, ticksOf_map_self, length_wantedReads]

end Owner

/-! ## Holes -/

section Holes

variable {window : PoolWindow κ} {tick : ℤ}

/-- The window is centred on the word of the current tick. -/
def PoolWindow.CenteredAt (window : PoolWindow κ) (tick : ℤ) : Prop :=
  window.wordMin + (window.wordCount / 2 : ℕ) = clTickBitmapCenterWord tick window.spacing

/-- How many ticks of the window are visited ahead of a word. -/
def PoolWindow.ticksAhead (window : PoolWindow κ) (offset : ℕ) : ℕ :=
  before window.block (window.wordCount / 2) (clBitmapCenterOutOffsets window.wordCount) offset

lemma mem_block {offset : ℕ} {t : ℤ} (ht : t ∈ window.block offset) : ∃ bitmap,
    window.words offset = some bitmap ∧ t ∈ wordTicks (window.wordMin + offset) window.spacing bitmap := by
  rw [PoolWindow.block] at ht
  cases hword : window.words offset with
  | none =>
      rw [hword] at ht
      cases ht
  | some bitmap =>
      rw [hword] at ht
      exact ⟨bitmap, rfl, ht⟩

lemma ordered_block (h : window.CenteredAt tick) :
    Ordered window.block (window.wordCount / 2) tick where
  ascending i := by
    rw [PoolWindow.block]
    cases window.words i with
    | none => exact List.Pairwise.nil
    | some bitmap => exact sorted_wordTicks _ _ bitmap
  apart i j hij a ha b hb := by
    rcases mem_block ha with ⟨bitmap, -, ha⟩
    rcases mem_block hb with ⟨bitmap', -, hb⟩
    rcases mem_wordTicks.mp ha with ⟨bit, hbit, -, rfl, -, -⟩
    rcases mem_wordTicks.mp hb with ⟨bit', hbit', -, rfl, -, -⟩
    exact tick_lt_tick (by omega)
  below i hi a ha := by
    rcases mem_block ha with ⟨bitmap, -, ha⟩
    refine wordTicks_lt ?_ ha
    rw [← h]
    omega
  above i hi a ha := by
    rcases mem_block ha with ⟨bitmap, -, ha⟩
    refine lt_wordTicks ?_ ha
    rw [← h]
    omega

/-- What the budget lets through leaves no hole at the current tick if and only if it does not run out in the
middle of the part of a word at or below that tick. -/
theorem noHole_take_iff (h : window.CenteredAt tick) (left : ℕ) :
    NoHole tick window.ticks (window.ticks.take left) ↔
      ∀ offset < window.wordCount, ¬(window.ticksAhead offset < left ∧
        left < window.ticksAhead offset + (window.block offset).countP fun t => t ≤ tick) := by
  rw [PoolWindow.ticks, clBitmapCenterOutOffsets,
    noHole_iff (ordered_block h) (sorted_centerOut window.wordCount)]
  simp only [mem_centerOut]
  rfl

end Holes

end Loop

end PolygonArb

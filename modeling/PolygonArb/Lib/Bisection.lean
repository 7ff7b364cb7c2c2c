import Mathlib.Algebra.Order.Group.Nat
import Mathlib.Algebra.Ring.Nat
import Mathlib.Data.List.Basic
import Mathlib.Tactic.Common

/-!
# Bisecting what fails

A slice of a table is attempted as a whole.  A slice that fails is cut in half and its halves are
attempted, until single rows fail alone; a fatal failure ends it all.  The slices still to attempt are a
stack (`drain`).

The attempted slices are the pieces of the first one (`Piece`).  Two of them that were not cut share no
row (`Piece.eq_of_not_split`), every row is settled by one of them (`settled_of_drain`), and no other slice
is looked at (`drain_congr`).
-/

namespace Bisection

variable {ε β : Type*}

/-- What attempting a slice gives. -/
inductive Outcome (ε β : Type*)
  | answered (rows : List β)
  | fatal (e : ε)
  | failed

/-- `out[start + i] = rows[i]`. -/
def writeAt (out : List β) (start : ℕ) (rows : List β) : List β :=
  rows.zipIdx.foldl (fun out row => out.set (start + row.2) row.1) out

/-- The attempts that can still come from a slice: a long one may fail and leave two. -/
def weight (slice : ℕ × ℕ) : ℕ := max (2 * (slice.2 - slice.1) - 1) 1

/-- The slices `lo ≤ _ < hi` on the stack, the next one first. -/
def drain (outcome : ℕ → ℕ → Outcome ε β) (pending : List (ℕ × ℕ)) (out : List β) :
    Except ε (List β) :=
  match pending with
  | [] => .ok out
  | (lo, hi) :: pending =>
      match outcome lo hi with
      | .answered rows => drain outcome pending (writeAt out lo rows)
      | .fatal e => .error e
      | .failed =>
          if 1 < hi - lo then
            drain outcome ((lo, lo + (hi - lo) / 2) :: (lo + (hi - lo) / 2, hi) :: pending) out
          else drain outcome pending out
termination_by (pending.map weight).sum
decreasing_by
  all_goals simp only [List.map_cons, List.sum_cons, weight]
  all_goals omega

section Step

variable {outcome : ℕ → ℕ → Outcome ε β} {lo hi : ℕ} {pending : List (ℕ × ℕ)} {out : List β}

lemma drain_answered {rows : List β} (h : outcome lo hi = .answered rows) :
    drain outcome ((lo, hi) :: pending) out = drain outcome pending (writeAt out lo rows) := by
  rw [drain, h]

lemma drain_fatal {e : ε} (h : outcome lo hi = .fatal e) :
    drain outcome ((lo, hi) :: pending) out = .error e := by
  rw [drain, h]

lemma drain_cut (h : outcome lo hi = .failed) (hlong : 1 < hi - lo) :
    drain outcome ((lo, hi) :: pending) out =
      drain outcome ((lo, lo + (hi - lo) / 2) :: (lo + (hi - lo) / 2, hi) :: pending) out := by
  rw [drain, h]
  exact if_pos hlong

lemma drain_alone (h : outcome lo hi = .failed) (hshort : ¬ 1 < hi - lo) :
    drain outcome ((lo, hi) :: pending) out = drain outcome pending out := by
  rw [drain, h]
  exact if_neg hshort

end Step

/-- The pieces a slice is attempted in, itself among them. -/
inductive Piece (split : ℕ → ℕ → Prop) : ℕ → ℕ → ℕ → ℕ → Prop
  | whole {lo hi : ℕ} : Piece split lo hi lo hi
  | left {lo hi a b : ℕ} (hsplit : split lo hi) (hlong : 1 < hi - lo)
      (h : Piece split lo (lo + (hi - lo) / 2) a b) : Piece split lo hi a b
  | right {lo hi a b : ℕ} (hsplit : split lo hi) (hlong : 1 < hi - lo)
      (h : Piece split (lo + (hi - lo) / 2) hi a b) : Piece split lo hi a b

section Pieces

variable {split : ℕ → ℕ → Prop} {lo hi a b c d i : ℕ}

lemma Piece.bounds (h : Piece split lo hi a b) (hne : lo < hi) : lo ≤ a ∧ a < b ∧ b ≤ hi := by
  induction h with
  | whole => omega
  | left _ hlong _ ih =>
      have hrest := ih (by omega)
      omega
  | right _ hlong _ ih =>
      have hrest := ih (by omega)
      omega

/-- The halves of a piece that is cut are pieces. -/
lemma Piece.halves (h : Piece split lo hi a b) (hsplit : split a b) (hlong : 1 < b - a) :
    Piece split lo hi a (a + (b - a) / 2) ∧ Piece split lo hi (a + (b - a) / 2) b := by
  induction h with
  | whole => exact ⟨.left hsplit hlong .whole, .right hsplit hlong .whole⟩
  | left hs hl _ ih => exact ⟨.left hs hl (ih hsplit hlong).1, .left hs hl (ih hsplit hlong).2⟩
  | right hs hl _ ih => exact ⟨.right hs hl (ih hsplit hlong).1, .right hs hl (ih hsplit hlong).2⟩

/-- Two pieces that were not cut have no row in common unless they are the same. -/
theorem Piece.eq_of_not_split (hne : lo < hi) (h : Piece split lo hi a b) (h' : Piece split lo hi c d)
    (hab : ¬ split a b) (hcd : ¬ split c d) (hrow : a ≤ i ∧ i < b) (hrow' : c ≤ i ∧ i < d) :
    a = c ∧ b = d := by
  induction h with
  | whole =>
      cases h' with
      | whole => exact ⟨rfl, rfl⟩
      | left hsplit => exact absurd hsplit hab
      | right hsplit => exact absurd hsplit hab
  | left hsplit hlong hrest ih =>
      have hbounds := hrest.bounds (by omega)
      cases h' with
      | whole => exact absurd hsplit hcd
      | left _ _ hrest' => exact ih (by omega) hrest' hab hrow
      | right _ _ hrest' =>
          have hbounds' := hrest'.bounds (by omega)
          omega
  | right hsplit hlong hrest ih =>
      have hbounds := hrest.bounds (by omega)
      cases h' with
      | whole => exact absurd hsplit hcd
      | left _ _ hrest' =>
          have hbounds' := hrest'.bounds (by omega)
          omega
      | right _ _ hrest' => exact ih (by omega) hrest' hab hrow

end Pieces

lemma length_writeAt (out : List β) (start : ℕ) (rows : List β) :
    (writeAt out start rows).length = out.length := by
  have hfold : ∀ (rows : List (β × ℕ)) (out : List β),
      (rows.foldl (fun out row => out.set (start + row.2) row.1) out).length = out.length := by
    intro rows
    induction rows with
    | nil => exact fun _ => rfl
    | cons row rows ih =>
        intro out
        rw [List.foldl_cons, ih, List.length_set]
  exact hfold _ _

lemma getElem?_writeAt {out rows : List β} {start i : ℕ} (hi : i < out.length) :
    (writeAt out start rows)[i]? =
      if start ≤ i ∧ i < start + rows.length then rows[i - start]? else out[i]? := by
  have hfold : ∀ (rows : List β) (k : ℕ) (out : List β), i < out.length →
      ((rows.zipIdx k).foldl (fun out row => out.set (start + row.2) row.1) out)[i]? =
        if start + k ≤ i ∧ i < start + k + rows.length then rows[i - (start + k)]? else out[i]? := by
    intro rows
    induction rows with
    | nil =>
        intro k out hi
        rw [if_neg (by simp)]
        rfl
    | cons row rows ih =>
        intro k out hi
        rw [List.zipIdx_cons, List.foldl_cons, ih (k + 1) _ (by rwa [List.length_set]), List.length_cons]
        by_cases hhere : i = start + k
        · subst hhere
          rw [if_neg (by omega), if_pos (by omega), List.getElem?_set_self hi, Nat.sub_self]
          rfl
        · rw [List.getElem?_set_ne (Ne.symm hhere)]
          split_ifs with hrest hall hall
          · have hsucc : i - (start + k) = i - (start + (k + 1)) + 1 := by omega
            rw [hsucc, List.getElem?_cons_succ]
          · omega
          · omega
          · rfl
  have hzero := hfold rows 0 out hi
  rwa [Nat.add_zero] at hzero

section Drain

variable {outcome outcome' : ℕ → ℕ → Outcome ε β} {n : ℕ} {blank : β}

/-- The pieces of the table `0 ≤ _ < n`. -/
abbrev Attempted (outcome : ℕ → ℕ → Outcome ε β) (n : ℕ) : ℕ → ℕ → Prop :=
  Piece (fun a b => outcome a b = .failed) 0 n

/-- The value of a row comes from the answer of a piece, or the row failed alone. -/
def Settled (outcome : ℕ → ℕ → Outcome ε β) (n : ℕ) (blank : β) (i : ℕ) (v : β) : Prop :=
  ∃ a b, Attempted outcome n a b ∧ a ≤ i ∧ i < b ∧
    ((∃ rows, outcome a b = .answered rows ∧ rows[i - a]? = some v) ∨
      outcome a b = .failed ∧ b = a + 1 ∧ v = blank)

/-- Every row is settled, or blank and still in a slice on the stack. -/
structure Draining (outcome : ℕ → ℕ → Outcome ε β) (n : ℕ) (blank : β) (pending : List (ℕ × ℕ))
    (out : List β) : Prop where
  length : out.length = n
  pieces : ∀ slice ∈ pending, Attempted outcome n slice.1 slice.2 ∧ slice.1 < slice.2
  rows : ∀ i < n, (∃ slice ∈ pending, slice.1 ≤ i ∧ i < slice.2) ∧ out[i]? = some blank ∨
    ∃ v, out[i]? = some v ∧ Settled outcome n blank i v

/-- An answered slice is written. -/
lemma Draining.answered {pending : List (ℕ × ℕ)} {out rows : List β} {lo hi : ℕ}
    (h : Draining outcome n blank ((lo, hi) :: pending) out) (hrows : outcome lo hi = .answered rows)
    (hlen : rows.length = hi - lo) : Draining outcome n blank pending (writeAt out lo rows) := by
  rcases List.forall_mem_cons.mp h.pieces with ⟨⟨hpiece, hlt⟩, hpieces⟩
  dsimp only at hpiece hlt
  refine ⟨(length_writeAt ..).trans h.length, hpieces, fun i hi' => ?_⟩
  rw [getElem?_writeAt (by rw [h.length]; exact hi')]
  split_ifs with hin
  · have hbound : i - lo < rows.length := by omega
    have hsome := List.getElem?_eq_getElem hbound
    exact Or.inr ⟨_, hsome, lo, hi, hpiece, hin.1, by omega, Or.inl ⟨rows, hrows, hsome⟩⟩
  · rcases h.rows i hi' with ⟨⟨slice, hslice, hmem⟩, hblank⟩ | hdone
    · rcases List.mem_cons.mp hslice with rfl | hrest
      · dsimp only at hmem
        omega
      · exact Or.inl ⟨⟨slice, hrest, hmem⟩, hblank⟩
    · exact Or.inr hdone

/-- A failed slice is cut. -/
lemma Draining.cut {pending : List (ℕ × ℕ)} {out : List β} {lo hi : ℕ}
    (h : Draining outcome n blank ((lo, hi) :: pending) out) (hfailed : outcome lo hi = .failed)
    (hlong : 1 < hi - lo) :
    Draining outcome n blank ((lo, lo + (hi - lo) / 2) :: (lo + (hi - lo) / 2, hi) :: pending) out := by
  rcases List.forall_mem_cons.mp h.pieces with ⟨⟨hpiece, hlt⟩, hpieces⟩
  dsimp only at hpiece hlt
  rcases hpiece.halves hfailed hlong with ⟨hleft, hright⟩
  refine ⟨h.length, ?_, fun i hi' => ?_⟩
  · rw [List.forall_mem_cons, List.forall_mem_cons]
    exact ⟨⟨hleft, by dsimp only; omega⟩, ⟨hright, by dsimp only; omega⟩, hpieces⟩
  · rcases h.rows i hi' with ⟨⟨slice, hslice, hmem⟩, hblank⟩ | hdone
    · refine Or.inl ⟨?_, hblank⟩
      rcases List.mem_cons.mp hslice with rfl | hrest
      · rcases Nat.lt_or_ge i (lo + (hi - lo) / 2) with hlo | hhi
        · exact ⟨_, List.mem_cons_self, hmem.1, hlo⟩
        · exact ⟨_, List.mem_cons_of_mem _ List.mem_cons_self, hhi, hmem.2⟩
      · exact ⟨slice, List.mem_cons_of_mem _ (List.mem_cons_of_mem _ hrest), hmem⟩
    · exact Or.inr hdone

/-- A single row that fails stays blank. -/
lemma Draining.alone {pending : List (ℕ × ℕ)} {out : List β} {lo hi : ℕ}
    (h : Draining outcome n blank ((lo, hi) :: pending) out) (hfailed : outcome lo hi = .failed)
    (hshort : ¬ 1 < hi - lo) : Draining outcome n blank pending out := by
  rcases List.forall_mem_cons.mp h.pieces with ⟨⟨hpiece, hlt⟩, hpieces⟩
  dsimp only at hpiece hlt
  refine ⟨h.length, hpieces, fun i hi' => ?_⟩
  rcases h.rows i hi' with ⟨⟨slice, hslice, hmem⟩, hblank⟩ | hdone
  · rcases List.mem_cons.mp hslice with rfl | hrest
    · exact Or.inr ⟨blank, hblank, lo, hi, hpiece, hmem.1, hmem.2, Or.inr ⟨hfailed, by omega, rfl⟩⟩
    · exact Or.inl ⟨⟨slice, hrest, hmem⟩, hblank⟩
  · exact Or.inr hdone

lemma draining_start (hn : 0 < n) :
    Draining outcome n blank [(0, n)] (List.replicate n blank) := by
  refine ⟨List.length_replicate, ?_, fun i hi => Or.inl ⟨⟨(0, n), List.mem_singleton_self _, ?_⟩, ?_⟩⟩
  · intro slice hslice
    rw [List.mem_singleton.mp hslice]
    exact ⟨.whole, hn⟩
  · exact ⟨Nat.zero_le _, hi⟩
  · rw [List.getElem?_replicate, if_pos hi]

/-- The invariant, from any stack to the end. -/
lemma Draining.run (hrows : ∀ a b rows, Attempted outcome n a b → outcome a b = .answered rows →
      rows.length = b - a)
    (pending : List (ℕ × ℕ)) (out : List β) (h : Draining outcome n blank pending out) :
    (∀ final, drain outcome pending out = .ok final → Draining outcome n blank [] final) ∧
      ∀ e, drain outcome pending out = .error e →
        ∃ a b, Attempted outcome n a b ∧ outcome a b = .fatal e := by
  induction pending, out using drain.induct outcome with
  | case1 out =>
      rw [drain]
      refine ⟨?_, ?_⟩
      · rintro final ⟨⟩
        exact h
      · rintro e ⟨⟩
  | case2 out lo hi pending rows hanswered ih =>
      rw [drain_answered hanswered]
      have hlen := hrows lo hi rows (h.pieces _ List.mem_cons_self).1 hanswered
      exact ih (h.answered hanswered hlen)
  | case3 out lo hi pending e hfatal =>
      rw [drain_fatal hfatal]
      refine ⟨?_, ?_⟩
      · rintro final ⟨⟩
      · rintro e' ⟨⟩
        exact ⟨lo, hi, (h.pieces _ List.mem_cons_self).1, hfatal⟩
  | case4 out lo hi pending hfailed hlong ih =>
      rw [drain_cut hfailed hlong]
      exact ih (h.cut hfailed hlong)
  | case5 out lo hi pending hfailed hshort ih =>
      rw [drain_alone hfailed hshort]
      exact ih (h.alone hfailed hshort)

/-- A table that is drained has every row settled; one that is not met a fatal failure. -/
theorem settled_of_drain (hn : 0 < n)
    (hrows : ∀ a b rows, Attempted outcome n a b → outcome a b = .answered rows →
      rows.length = b - a) :
    (∀ out, drain outcome [(0, n)] (List.replicate n blank) = .ok out →
      out.length = n ∧ ∀ i < n, ∃ v, out[i]? = some v ∧ Settled outcome n blank i v) ∧
      ∀ e, drain outcome [(0, n)] (List.replicate n blank) = .error e →
        ∃ a b, Attempted outcome n a b ∧ outcome a b = .fatal e := by
  rcases (draining_start hn).run hrows with ⟨hok, herror⟩
  refine ⟨fun out hout => ⟨(hok out hout).length, fun i hi => ?_⟩, herror⟩
  rcases (hok out hout).rows i hi with ⟨⟨slice, hslice, -⟩, -⟩ | hdone
  · cases hslice
  · exact hdone

/-- Slices that are not pieces are not looked at. -/
theorem drain_congr (h : ∀ a b, Attempted outcome n a b → outcome' a b = outcome a b) :
    drain outcome' [(0, n)] (List.replicate n blank) =
      drain outcome [(0, n)] (List.replicate n blank) := by
  have hrun : ∀ (pending : List (ℕ × ℕ)) (out : List β),
      (∀ slice ∈ pending, Attempted outcome n slice.1 slice.2) →
        drain outcome' pending out = drain outcome pending out := by
    intro pending out hpending
    induction pending, out using drain.induct outcome with
    | case1 out => rw [drain, drain]
    | case2 out lo hi pending rows hanswered ih =>
        rw [List.forall_mem_cons] at hpending
        have hsame := (h lo hi hpending.1).trans hanswered
        rw [drain_answered hsame, drain_answered hanswered]
        exact ih hpending.2
    | case3 out lo hi pending e hfatal =>
        rw [List.forall_mem_cons] at hpending
        have hsame := (h lo hi hpending.1).trans hfatal
        rw [drain_fatal hsame, drain_fatal hfatal]
    | case4 out lo hi pending hfailed hlong ih =>
        rw [List.forall_mem_cons] at hpending
        have hsame := (h lo hi hpending.1).trans hfailed
        rw [drain_cut hsame hlong, drain_cut hfailed hlong]
        rcases hpending.1.halves hfailed hlong with ⟨hleft, hright⟩
        exact ih (List.forall_mem_cons.mpr ⟨hleft, List.forall_mem_cons.mpr ⟨hright, hpending.2⟩⟩)
    | case5 out lo hi pending hfailed hshort ih =>
        rw [List.forall_mem_cons] at hpending
        have hsame := (h lo hi hpending.1).trans hfailed
        rw [drain_alone hsame hshort, drain_alone hfailed hshort]
        exact ih hpending.2
  refine hrun _ _ ?_
  intro slice hslice
  rw [List.mem_singleton.mp hslice]
  exact .whole

end Drain

end Bisection

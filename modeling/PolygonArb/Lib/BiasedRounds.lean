import Mathlib.Algebra.BigOperators.Group.Finset.Piecewise
import Mathlib.Algebra.Order.Group.Nat
import Mathlib.Algebra.Ring.Nat
import Mathlib.Tactic.Common

/-!
# Rounds with a bias

Several queues are served in turn, each with its own number of picks a turn, until `limit` elements are
picked or all queues are empty; elements whose key was picked before are passed over and do not count
(`rounds`).  The limit is looked at between turns only, not between the picks of one turn.

Without a limit the turns make up a `schedule`, which needs no cursors: what a cursor has passed is picked.
The rounds are that schedule up to the first turn that reaches the limit (`rounds_eq_capped`), so they stay
within it if and only if no turn crosses it (`length_rounds_le_iff`).
-/

namespace BiasedRounds

variable {α κ : Type*} [DecidableEq κ] (key : α → κ)

/-- Up to `bias` picks from a queue: what is left of it, and what is picked. -/
def takeFresh : List α → ℕ → List α → List α × List α
  | [], _, out => ([], out)
  | a :: rest, bias, out =>
      if bias = 0 then (a :: rest, out)
      else if key a ∈ out.map key then takeFresh rest bias out
      else takeFresh rest (bias - 1) (out ++ [a])

/-- One turn for every queue, while there is room. -/
def round (limit : ℕ) : List (ℕ × List α) → List α → List (ℕ × List α) × List α
  | [], out => ([], out)
  | (bias, queue) :: slots, out =>
      if limit ≤ out.length then ((bias, queue) :: slots, out)
      else
        let turn := takeFresh key queue bias out
        let rest := round limit slots turn.2
        ((bias, turn.1) :: rest.1, rest.2)

/-- What is left in all queues. -/
def waiting (slots : List (ℕ × List α)) : ℕ := (slots.map fun slot => slot.2.length).sum

lemma takeFresh_length (queue : List α) (bias : ℕ) (out : List α) :
    out.length ≤ (takeFresh key queue bias out).2.length ∧
      (takeFresh key queue bias out).2.length + (takeFresh key queue bias out).1.length ≤
        out.length + queue.length := by
  induction queue generalizing bias out with
  | nil => exact ⟨le_rfl, le_rfl⟩
  | cons a rest ih =>
      rw [takeFresh]
      split_ifs
      · exact ⟨le_rfl, le_rfl⟩
      · rcases ih bias out with ⟨hmore, hless⟩
        rw [List.length_cons]
        omega
      · rcases ih (bias - 1) (out ++ [a]) with ⟨hmore, hless⟩
        rw [List.length_append, List.length_singleton] at hmore hless
        rw [List.length_cons]
        omega

lemma round_length (limit : ℕ) (slots : List (ℕ × List α)) (out : List α) :
    out.length ≤ (round key limit slots out).2.length ∧
      (round key limit slots out).2.length + waiting (round key limit slots out).1 ≤
        out.length + waiting slots := by
  induction slots generalizing out with
  | nil => exact ⟨le_rfl, le_rfl⟩
  | cons slot slots ih =>
      rw [round]
      split_ifs
      · exact ⟨le_rfl, le_rfl⟩
      · rcases takeFresh_length key slot.2 slot.1 out with ⟨hmore, hless⟩
        rcases ih (takeFresh key slot.2 slot.1 out).2 with ⟨hmore', hless'⟩
        simp only [waiting, List.map_cons, List.sum_cons] at hless' ⊢
        omega

/-- Rounds until the limit is reached or a round picks nothing. -/
def rounds (limit : ℕ) (slots : List (ℕ × List α)) (out : List α) : List α :=
  if limit ≤ out.length then out
  else if (round key limit slots out).2.length = out.length then (round key limit slots out).2
  else rounds limit (round key limit slots out).1 (round key limit slots out).2
termination_by waiting slots
decreasing_by
  have hlength := round_length key limit slots out
  omega

/-! ## Picks -/

section Picks

variable {key} {queue : List α} {bias : ℕ} {out : List α}

/-- The picks of a turn follow on: each is of the queue, and all of the queue before it is picked. -/
lemma takeFresh_picks (queue : List α) (bias : ℕ) (out : List α) :
    ∃ picked, (takeFresh key queue bias out).2 = out ++ picked ∧
      ∀ x ∈ picked, ∃ pre post, queue = pre ++ x :: post ∧
        ∀ y ∈ pre, key y ∈ (takeFresh key queue bias out).2.map key := by
  induction queue generalizing bias out with
  | nil => exact ⟨[], (List.append_nil out).symm, by simp⟩
  | cons a rest ih =>
      rw [takeFresh]
      split_ifs with hbias hseen
      · exact ⟨[], (List.append_nil out).symm, by simp⟩
      · rcases ih bias out with ⟨picked, hout, hpicked⟩
        refine ⟨picked, hout, fun x hx => ?_⟩
        rcases hpicked x hx with ⟨pre, post, hqueue, hpre⟩
        refine ⟨a :: pre, post, by rw [hqueue]; rfl, List.forall_mem_cons.mpr ⟨?_, hpre⟩⟩
        rw [hout, List.map_append]
        exact List.mem_append_left _ hseen
      · rcases ih (bias - 1) (out ++ [a]) with ⟨picked, hout, hpicked⟩
        refine ⟨a :: picked, by rw [hout, List.append_assoc]; rfl, List.forall_mem_cons.mpr ⟨?_, ?_⟩⟩
        · exact ⟨[], rest, rfl, by simp⟩
        · intro x hx
          rcases hpicked x hx with ⟨pre, post, hqueue, hpre⟩
          refine ⟨a :: pre, post, by rw [hqueue]; rfl, List.forall_mem_cons.mpr ⟨?_, hpre⟩⟩
          rw [hout, List.map_append, List.map_append]
          exact List.mem_append_left _ (List.mem_append_right _ (List.mem_singleton_self _))

lemma nodup_takeFresh (queue : List α) (bias : ℕ) {out : List α} (h : (out.map key).Nodup) :
    ((takeFresh key queue bias out).2.map key).Nodup := by
  induction queue generalizing bias out with
  | nil => exact h
  | cons a rest ih =>
      rw [takeFresh]
      split_ifs with hbias hseen
      · exact h
      · exact ih bias h
      · refine ih (bias - 1) ?_
        rw [List.map_append, List.nodup_append']
        exact ⟨h, List.nodup_singleton _, List.disjoint_singleton.mpr hseen⟩

/-- What a turn passes is picked. -/
lemma takeFresh_passed (queue : List α) (bias : ℕ) (out : List α) :
    ∃ passed, queue = passed ++ (takeFresh key queue bias out).1 ∧
      ∀ y ∈ passed, key y ∈ (takeFresh key queue bias out).2.map key := by
  induction queue generalizing bias out with
  | nil => exact ⟨[], rfl, by simp⟩
  | cons a rest ih =>
      rcases @takeFresh_picks _ _ _ key rest bias out with ⟨picked, hout, -⟩
      rcases @takeFresh_picks _ _ _ key rest (bias - 1) (out ++ [a]) with ⟨picked', hout', -⟩
      rw [takeFresh]
      split_ifs with hbias hseen
      · exact ⟨[], rfl, by simp⟩
      · rcases ih bias out with ⟨passed, hrest, hpassed⟩
        refine ⟨a :: passed, congrArg (a :: ·) hrest, List.forall_mem_cons.mpr ⟨?_, hpassed⟩⟩
        rw [hout, List.map_append]
        exact List.mem_append_left _ hseen
      · rcases ih (bias - 1) (out ++ [a]) with ⟨passed, hrest, hpassed⟩
        refine ⟨a :: passed, congrArg (a :: ·) hrest, List.forall_mem_cons.mpr ⟨?_, hpassed⟩⟩
        rw [hout', List.map_append, List.map_append]
        exact List.mem_append_left _ (List.mem_append_right _ (List.mem_singleton_self _))

/-- Elements that were picked before make no difference. -/
lemma takeFresh_append {passed : List α} (h : ∀ y ∈ passed, key y ∈ out.map key) :
    (takeFresh key (passed ++ queue) bias out).2 = (takeFresh key queue bias out).2 := by
  induction passed with
  | nil => rfl
  | cons a rest ih =>
      rw [List.forall_mem_cons] at h
      rw [List.cons_append, takeFresh, if_pos h.1]
      split_ifs with hbias
      · cases queue with
        | nil => rfl
        | cons b queue => rw [takeFresh, if_pos hbias]
      · exact ih h.2

/-- A turn that picks nothing meets nothing new. -/
lemma mem_of_takeFresh_eq (hbias : 0 < bias) (h : (takeFresh key queue bias out).2 = out) :
    ∀ y ∈ queue, key y ∈ out.map key := by
  induction queue with
  | nil => simp
  | cons a rest ih =>
      rw [takeFresh, if_neg hbias.ne'] at h
      split_ifs at h with hseen
      · exact List.forall_mem_cons.mpr ⟨hseen, ih h⟩
      · have hlength := (takeFresh_length key rest (bias - 1) (out ++ [a])).1
        rw [h, List.length_append, List.length_singleton] at hlength
        omega

end Picks

/-! ## The schedule -/

section Schedule

variable {key} {slots : List (ℕ × List α)} {start out : List α} {limit n : ℕ}

/-- The picks after the turn `n`, of the slot `n` modulo their number. -/
def turn (key : α → κ) (slots : List (ℕ × List α)) (n : ℕ) (out : List α) : List α :=
  match slots[n % slots.length]? with
  | some slot => (takeFresh key slot.2 slot.1 out).2
  | none => out

/-- The picks before the turn `n`, without a limit. -/
def schedule (key : α → κ) (slots : List (ℕ × List α)) (start : List α) : ℕ → List α
  | 0 => start
  | n + 1 => turn key slots n (schedule key slots start n)

/-- The picks before the turn `n`, where turns at the limit are left out. -/
def capped (key : α → κ) (slots : List (ℕ × List α)) (start : List α) (limit : ℕ) : ℕ → List α
  | 0 => start
  | n + 1 =>
      if limit ≤ (capped key slots start limit n).length then capped key slots start limit n
      else turn key slots n (capped key slots start limit n)

/-- A queue that is served: the elements before its cursor are picked. -/
def Served (key : α → κ) (out : List α) (slot left : ℕ × List α) : Prop :=
  slot.1 = left.1 ∧ ∃ passed, slot.2 = passed ++ left.2 ∧ ∀ y ∈ passed, key y ∈ out.map key

/-- One turn, or none at the limit. -/
def turnOn (key : α → κ) (limit : ℕ) (out : List α) (slot : ℕ × List α) : List α :=
  if limit ≤ out.length then out else (takeFresh key slot.2 slot.1 out).2

lemma prefix_turnOn (slot : ℕ × List α) : out <+: turnOn key limit out slot := by
  rw [turnOn]
  split_ifs
  · exact List.prefix_rfl
  · rcases @takeFresh_picks _ _ _ key slot.2 slot.1 out with ⟨picked, hout, -⟩
    exact ⟨picked, hout.symm⟩

lemma prefix_foldl_turnOn (slots : List (ℕ × List α)) : out <+: slots.foldl (turnOn key limit) out := by
  induction slots generalizing out with
  | nil => exact List.prefix_rfl
  | cons slot slots ih => exact (prefix_turnOn slot).trans ih

omit [DecidableEq κ] in
lemma Served.mono {out' : List α} {slot left : ℕ × List α} (h : Served key out slot left)
    (hgrows : out <+: out') : Served key out' slot left := by
  rcases h with ⟨hbias, passed, hqueue, hpassed⟩
  exact ⟨hbias, passed, hqueue, fun y hy => (hgrows.map key).subset (hpassed y hy)⟩

/-- At the limit nothing happens. -/
lemma foldl_turnOn_of_full (slots : List (ℕ × List α)) (hfull : limit ≤ out.length) :
    slots.foldl (turnOn key limit) out = out := by
  induction slots with
  | nil => rfl
  | cons slot slots ih => rw [List.foldl_cons, turnOn, if_pos hfull, ih]

/-- A round is a turn of each of the full queues. -/
lemma round_spec {slots cursors : List (ℕ × List α)} (h : List.Forall₂ (Served key out) slots cursors) :
    (round key limit cursors out).2 = slots.foldl (turnOn key limit) out ∧
      List.Forall₂ (Served key (round key limit cursors out).2) slots (round key limit cursors out).1 := by
  induction slots generalizing cursors out with
  | nil =>
      cases h
      exact ⟨rfl, .nil⟩
  | cons slot slots ih =>
      cases h with
      | @cons _ cursor _ cursors hserved hrest =>
          rw [round, List.foldl_cons]
          split_ifs with hfull
          · rw [turnOn, if_pos hfull, foldl_turnOn_of_full slots hfull]
            exact ⟨rfl, .cons hserved hrest⟩
          · rcases hserved with ⟨hbias, passed, hqueue, hpassed⟩
            have hturn : (takeFresh key cursor.2 cursor.1 out).2 = turnOn key limit out slot := by
              rw [turnOn, if_neg hfull, hqueue, takeFresh_append hpassed, hbias]
            have hgrows : out <+: (takeFresh key cursor.2 cursor.1 out).2 :=
              hturn ▸ prefix_turnOn slot
            rcases ih (hrest.imp fun _ _ hslot => hslot.mono hgrows) with ⟨hround, hserved'⟩
            rw [hturn] at hround hserved'
            have hlast : turnOn key limit out slot <+: (round key limit cursors
                (takeFresh key cursor.2 cursor.1 out).2).2 := by
              rw [hturn, hround]
              exact prefix_foldl_turnOn slots
            dsimp only
            rw [← hturn] at hround hserved'
            refine ⟨by rw [hround, hturn], .cons ⟨hbias, ?_⟩ hserved'⟩
            rcases @takeFresh_passed _ _ _ key cursor.2 cursor.1 out with ⟨passed', hqueue', hpassed'⟩
            refine ⟨passed ++ passed', ?_, fun y hy => ?_⟩
            · rw [List.append_assoc, ← hqueue', hqueue]
            · rcases List.mem_append.mp hy with hold | hnew
              · exact ((hgrows.trans (hturn ▸ hlast)).map key).subset (hpassed y hold)
              · rw [hturn] at hpassed'
                exact (hlast.map key).subset (hpassed' y hnew)

/-- The turns of a round, one by one. -/
lemma capped_round (k j : ℕ) (hj : j ≤ slots.length) :
    capped key slots start limit (k * slots.length + j) =
      (slots.take j).foldl (turnOn key limit) (capped key slots start limit (k * slots.length)) := by
  induction j with
  | zero => rfl
  | succ j ih =>
      have hslot : slots[(k * slots.length + j) % slots.length]? = some slots[j] := by
        rw [Nat.mul_comm, Nat.mul_add_mod, Nat.mod_eq_of_lt hj]
        exact List.getElem?_eq_getElem hj
      rw [← Nat.add_assoc, capped, turn, hslot, ih (Nat.le_of_succ_le hj), List.take_succ_eq_append_getElem hj,
        List.foldl_append, List.foldl_cons, List.foldl_nil, turnOn]

/-- A round that picks nothing has passed every queue. -/
lemma passed_of_foldl_eq {slots : List (ℕ × List α)} (hroom : out.length < limit)
    (hbias : ∀ slot ∈ slots, 0 < slot.1) (h : slots.foldl (turnOn key limit) out = out) :
    ∀ slot ∈ slots, ∀ y ∈ slot.2, key y ∈ out.map key := by
  induction slots with
  | nil => simp
  | cons slot slots ih =>
      rw [List.forall_mem_cons] at hbias
      have hsame : turnOn key limit out slot = out := by
        have hrest : turnOn key limit out slot <+: slots.foldl (turnOn key limit) (turnOn key limit out slot) :=
          prefix_foldl_turnOn slots
        rw [← List.foldl_cons, h] at hrest
        exact ((prefix_turnOn slot).eq_of_length_le hrest.length_le).symm
      rw [List.foldl_cons, hsame] at h
      refine List.forall_mem_cons.mpr ⟨?_, ih hbias.2 h⟩
      rw [turnOn, if_neg (Nat.not_le.mpr hroom)] at hsame
      exact mem_of_takeFresh_eq hbias.1 hsame

/-- The rounds are the capped schedule, at a turn where it is full or every queue is passed. -/
theorem rounds_eq_capped (slots : List (ℕ × List α)) (start : List α) (limit : ℕ)
    (hbias : ∀ slot ∈ slots, 0 < slot.1) :
    ∃ n, rounds key limit slots start = capped key slots start limit n ∧
      (limit ≤ (capped key slots start limit n).length ∨
        ∀ slot ∈ slots, ∀ y ∈ slot.2, key y ∈ (capped key slots start limit n).map key) := by
  have hrun : ∀ (cursors : List (ℕ × List α)) (out : List α) (k : ℕ),
      List.Forall₂ (Served key out) slots cursors → out = capped key slots start limit (k * slots.length) →
      ∃ n, rounds key limit cursors out = capped key slots start limit n ∧
        (limit ≤ (capped key slots start limit n).length ∨
          ∀ slot ∈ slots, ∀ y ∈ slot.2, key y ∈ (capped key slots start limit n).map key) := by
    intro cursors out
    induction cursors, out using rounds.induct key limit with
    | case1 cursors out hfull =>
        intro k _ hout
        rw [rounds, if_pos hfull]
        exact ⟨_, hout, Or.inl (hout ▸ hfull)⟩
    | case2 cursors out hroom hstalled =>
        intro k hserved hout
        have hround : (round key limit cursors out).2 = slots.foldl (turnOn key limit) out :=
          (round_spec hserved).1
        have hsame : slots.foldl (turnOn key limit) out = out := by
          rw [← hround]
          exact ((hround ▸ prefix_foldl_turnOn slots).eq_of_length hstalled.symm).symm
        rw [rounds, if_neg hroom, if_pos hstalled, hround, hsame]
        exact ⟨_, hout, Or.inr (hout ▸ passed_of_foldl_eq (not_le.mp hroom) hbias hsame)⟩
    | case3 cursors out hroom hpicked ih =>
        intro k hserved hout
        have hround : (round key limit cursors out).2 = slots.foldl (turnOn key limit) out :=
          (round_spec hserved).1
        rw [rounds, if_neg hroom, if_neg hpicked]
        refine ih (k + 1) (round_spec hserved).2 ?_
        rw [hround, Nat.succ_mul, capped_round k slots.length le_rfl, List.take_length, ← hout]
  refine hrun slots start 0 ?_ ?_
  · exact List.forall₂_same.mpr fun slot _ => ⟨rfl, [], rfl, by simp⟩
  · rw [Nat.zero_mul]
    rfl

lemma prefix_turn (n : ℕ) (out : List α) : out <+: turn key slots n out := by
  rw [turn]
  split
  · rename_i slot _
    rcases @takeFresh_picks _ _ _ key slot.2 slot.1 out with ⟨picked, hout, -⟩
    exact ⟨picked, hout.symm⟩
  · exact List.prefix_rfl

lemma prefix_capped_succ (n : ℕ) : capped key slots start limit n <+: capped key slots start limit (n + 1) := by
  rw [capped]
  split_ifs
  · exact List.prefix_rfl
  · exact prefix_turn n _

lemma prefix_capped {m n : ℕ} (h : m ≤ n) :
    capped key slots start limit m <+: capped key slots start limit n := by
  induction h with
  | refl => exact List.prefix_rfl
  | step _ ih => exact ih.trans (prefix_capped_succ _)

lemma prefix_schedule {m n : ℕ} (h : m ≤ n) : schedule key slots start m <+: schedule key slots start n := by
  induction h with
  | refl => exact List.prefix_rfl
  | step _ ih => exact ih.trans (prefix_turn _ _)

/-- Below the limit the capped schedule is the schedule. -/
lemma capped_eq_schedule (h : ∀ m < n, (schedule key slots start m).length < limit) :
    capped key slots start limit n = schedule key slots start n := by
  induction n with
  | zero => rfl
  | succ n ih =>
      have hbefore := ih fun m hm => h m (Nat.lt_succ_of_lt hm)
      rw [capped, hbefore, if_neg (Nat.not_le.mpr (h n (Nat.lt_succ_self n))), schedule]

lemma schedule_lt_of_capped_lt (h : (capped key slots start limit n).length < limit) :
    capped key slots start limit n = schedule key slots start n := by
  refine capped_eq_schedule fun m hm => ?_
  induction m using Nat.strong_induction_on with
  | h m ih =>
      rw [← capped_eq_schedule fun m' hm' => ih m' hm' (hm'.trans hm)]
      exact (prefix_capped hm.le).length_le.trans_lt h

/-- At the limit the capped schedule stays as it is. -/
lemma capped_of_full {m : ℕ} (hfull : limit ≤ (capped key slots start limit m).length) (h : m ≤ n) :
    capped key slots start limit n = capped key slots start limit m := by
  induction h with
  | refl => rfl
  | step _ ih => rw [capped, ih, if_pos hfull]

/-- A turn of queues that are passed picks nothing. -/
lemma turn_of_passed (h : ∀ slot ∈ slots, ∀ y ∈ slot.2, key y ∈ out.map key) :
    turn key slots n out = out := by
  rw [turn]
  split
  · rename_i slot hslot
    have hpassed := h slot (List.mem_of_getElem? hslot)
    have hskip := @takeFresh_append _ _ _ key [] slot.1 out slot.2 hpassed
    rwa [List.append_nil] at hskip
  · rfl

lemma schedule_of_passed {m : ℕ}
    (h : ∀ slot ∈ slots, ∀ y ∈ slot.2, key y ∈ (schedule key slots start m).map key) (hmn : m ≤ n) :
    schedule key slots start n = schedule key slots start m := by
  induction hmn with
  | refl => rfl
  | step _ ih => rw [schedule, ih, turn_of_passed h]

/-- The rounds stay within the limit if and only if no turn of the schedule crosses it. -/
theorem length_rounds_le_iff (hbias : ∀ slot ∈ slots, 0 < slot.1) (hstart : start.length ≤ limit) :
    (rounds key limit slots start).length ≤ limit ↔
      ∀ n, (schedule key slots start n).length < limit → (schedule key slots start (n + 1)).length ≤ limit := by
  rcases @rounds_eq_capped _ _ _ key slots start limit hbias with ⟨last, hlast, hend⟩
  rw [hlast]
  constructor
  · intro hle n hroom
    by_contra! hcross
    have hbelow : ∀ m < n + 1, (schedule key slots start m).length < limit := fun m hm =>
      (prefix_schedule (Nat.le_of_lt_succ hm)).length_le.trans_lt hroom
    have hsame := capped_eq_schedule hbelow
    rcases Nat.lt_or_ge n last with hreached | hstopped
    · rw [capped_of_full (hsame ▸ hcross.le) hreached, hsame] at hle
      omega
    · -- the rounds ended below the limit, so there was nothing left to cross it with
      have hsame' := capped_eq_schedule fun m hm => hbelow m (hm.trans_le (Nat.le_succ_of_le hstopped))
      have hlow := hbelow last (Nat.lt_succ_of_le hstopped)
      rw [hsame'] at hend
      rcases hend with hfull | hpassed
      · omega
      · rw [schedule_of_passed hpassed (Nat.le_succ_of_le hstopped)] at hcross
        omega
  · intro hturns
    have hall : ∀ n, (capped key slots start limit n).length ≤ limit := by
      intro n
      induction n with
      | zero => exact hstart
      | succ n ih =>
          rcases Nat.lt_or_ge (capped key slots start limit n).length limit with hroom | hfull
          · have hsame := schedule_lt_of_capped_lt hroom
            rw [capped, if_neg (Nat.not_le.mpr hroom), hsame]
            exact hturns n (hsame ▸ hroom)
          · rwa [capped, if_pos hfull]
    exact hall last

/-- What is picked after the start is of a queue, with all that comes before it there. -/
def Ranked (key : α → κ) (slots : List (ℕ × List α)) (start out : List α) : Prop :=
  ∀ x ∈ out, x ∈ start ∨ ∃ slot ∈ slots, ∃ pre post, slot.2 = pre ++ x :: post ∧
    ∀ y ∈ pre, key y ∈ out.map key

lemma ranked_turn (h : Ranked key slots start out) : Ranked key slots start (turn key slots n out) := by
  have hgrows : out <+: turn key slots n out := prefix_turn n out
  rw [turn] at hgrows ⊢
  cases hslot : slots[n % slots.length]? with
  | none => exact h
  | some slot =>
      rw [hslot] at hgrows
      dsimp only at hgrows ⊢
      intro x hx
      rcases @takeFresh_picks _ _ _ key slot.2 slot.1 out with ⟨picked, hout, hpicked⟩
      rw [hout] at hx
      rcases List.mem_append.mp hx with hold | hnew
      · rcases h x hold with hstart | ⟨slot', hmem, pre, post, hqueue, hpre⟩
        · exact Or.inl hstart
        · exact Or.inr ⟨slot', hmem, pre, post, hqueue, fun y hy => (hgrows.map key).subset (hpre y hy)⟩
      · rcases hpicked x hnew with ⟨pre, post, hqueue, hpre⟩
        exact Or.inr ⟨slot, List.mem_of_getElem? hslot, pre, post, hqueue, hpre⟩

lemma nodup_turn (h : (out.map key).Nodup) : ((turn key slots n out).map key).Nodup := by
  rw [turn]
  split
  · exact nodup_takeFresh _ _ h
  · exact h

/-- The rounds follow on from the start, with distinct keys and each queue from its front, and end below the
limit only when every queue is passed. -/
theorem rounds_spec (hbias : ∀ slot ∈ slots, 0 < slot.1) (hstart : (start.map key).Nodup) :
    start <+: rounds key limit slots start ∧ ((rounds key limit slots start).map key).Nodup ∧
      Ranked key slots start (rounds key limit slots start) ∧
      ((rounds key limit slots start).length < limit →
        ∀ slot ∈ slots, ∀ y ∈ slot.2, key y ∈ (rounds key limit slots start).map key) := by
  rcases @rounds_eq_capped _ _ _ key slots start limit hbias with ⟨last, hlast, hend⟩
  have hinv : ∀ n, ((capped key slots start limit n).map key).Nodup ∧
      Ranked key slots start (capped key slots start limit n) := by
    intro n
    induction n with
    | zero => exact ⟨hstart, fun x hx => Or.inl hx⟩
    | succ n ih =>
        rw [capped]
        split_ifs
        · exact ih
        · exact ⟨nodup_turn ih.1, ranked_turn ih.2⟩
  rw [hlast]
  refine ⟨prefix_capped (Nat.zero_le last), (hinv last).1, (hinv last).2, fun hroom => ?_⟩
  exact hend.resolve_left (Nat.not_le.mpr hroom)

end Schedule

/-! ## Distinct elements

When no key occurs twice, every turn picks as many elements as its bias allows, and the schedule can be
counted. -/

section Distinct

variable {key} {slots : List (ℕ × List α)} {start : List α} {n : ℕ}

def biasAt (slots : List (ℕ × List α)) (s : ℕ) : ℕ := (slots[s]?.map Prod.fst).getD 0

def queueAt (slots : List (ℕ × List α)) (s : ℕ) : List α := (slots[s]?.map Prod.snd).getD []

/-- The turns of a slot before the turn `n`. -/
def turnsBefore (slots : List (ℕ × List α)) (s n : ℕ) : ℕ :=
  (n + (slots.length - 1 - s)) / slots.length

/-- The picks before the turn `n`, counted. -/
def scheduled (slots : List (ℕ × List α)) (start : List α) (n : ℕ) : ℕ :=
  start.length + ∑ s ∈ Finset.range slots.length,
    min (queueAt slots s).length (biasAt slots s * turnsBefore slots s n)

/-- No key twice, in the start and all queues. -/
structure Distinct (key : α → κ) (slots : List (ℕ × List α)) (start : List α) : Prop where
  queue : ∀ s, ((queueAt slots s).map key).Nodup
  apart : ∀ s s', ∀ x ∈ queueAt slots s, ∀ y ∈ queueAt slots s', key x = key y → s = s'
  fresh : ∀ s, ∀ x ∈ queueAt slots s, key x ∉ start.map key

lemma turnsBefore_succ {s : ℕ} (hs : s < slots.length) : turnsBefore slots s (n + 1) =
    turnsBefore slots s n + if s = n % slots.length then 1 else 0 := by
  have hsucc : n + 1 + (slots.length - 1 - s) = n + (slots.length - 1 - s) + 1 := by omega
  rw [turnsBefore, turnsBefore, hsucc, Nat.succ_div]
  refine congrArg _ (if_congr ?_ rfl rfl)
  have hmod := Nat.mod_lt n (Nat.zero_lt_of_lt hs)
  have hdiv := Nat.div_add_mod n slots.length
  have hsplit : n + (slots.length - 1 - s) + 1 =
      slots.length * (n / slots.length) + (n % slots.length + slots.length - s) := by omega
  rw [hsplit, Nat.dvd_add_right (Nat.dvd_mul_right _ _)]
  constructor
  · intro hdvd
    have heq := Nat.eq_of_dvd_of_lt_two_mul (by omega) hdvd (by omega)
    omega
  · rintro rfl
    rw [Nat.add_sub_cancel_left]

lemma turnsBefore_zero {s : ℕ} (hs : s < slots.length) : turnsBefore slots s 0 = 0 := by
  rw [turnsBefore, Nat.div_eq_of_lt]
  omega

/-- New elements are picked up to the bias. -/
lemma takeFresh_of_fresh {queue : List α} {bias : ℕ} {out : List α} (hqueue : (queue.map key).Nodup)
    (hfresh : ∀ x ∈ queue, key x ∉ out.map key) :
    (takeFresh key queue bias out).2 = out ++ queue.take bias := by
  induction queue generalizing bias out with
  | nil => simp [takeFresh]
  | cons a rest ih =>
      rw [List.map_cons, List.nodup_cons] at hqueue
      rw [List.forall_mem_cons] at hfresh
      rw [takeFresh]
      split_ifs with hbias hseen
      · simp [hbias]
      · exact absurd hseen hfresh.1
      · rcases Nat.exists_eq_succ_of_ne_zero hbias with ⟨b, rfl⟩
        rw [Nat.succ_sub_one, ih hqueue.2, List.take_succ_cons, List.append_assoc, List.singleton_append]
        intro x hx hmem
        rw [List.map_append, List.mem_append, List.map_singleton, List.mem_singleton] at hmem
        rcases hmem with hold | hself
        · exact hfresh.2 x hx hold
        · exact hqueue.1 (hself ▸ List.mem_map_of_mem hx)

/-- The elements of a queue that are picked are the first ones, as many as its turns allow. -/
def Counted (key : α → κ) (slots : List (ℕ × List α)) (start : List α) (n : ℕ) : Prop :=
  (schedule key slots start n).length = scheduled slots start n ∧
    ∀ s < slots.length, ∀ i x, (queueAt slots s)[i]? = some x →
      (key x ∈ (schedule key slots start n).map key ↔ i < biasAt slots s * turnsBefore slots s n)

lemma counted_zero (h : Distinct key slots start) : Counted key slots start 0 := by
  refine ⟨?_, fun s hs i x hx => ?_⟩
  · rw [schedule, scheduled, Finset.sum_eq_zero, Nat.add_zero]
    intro s hs
    rw [turnsBefore_zero (Finset.mem_range.mp hs), Nat.mul_zero, Nat.min_zero]
  · rw [turnsBefore_zero hs, Nat.mul_zero]
    exact iff_of_false (h.fresh s x (List.mem_of_getElem? hx)) (Nat.not_lt_zero i)

omit [DecidableEq κ] in
/-- A place of the slot's queue is picked in this turn if it is among the next ones. -/
lemma mem_picks_iff {queue : List α} {first bias i : ℕ} {x : α} (hnodup : (queue.map key).Nodup)
    (hx : queue[i]? = some x) :
    key x ∈ ((queue.drop first).take bias).map key ↔ first ≤ i ∧ i < first + bias := by
  constructor
  · intro hmem
    rcases List.mem_map.mp hmem with ⟨y, hy, hkey⟩
    rcases List.mem_iff_getElem?.mp hy with ⟨j, hj⟩
    rw [List.getElem?_take] at hj
    split_ifs at hj with hlt
    rw [List.getElem?_drop] at hj
    have hi := (List.getElem?_eq_some_iff.mp hx).1
    have heq : (queue.map key)[first + j]? = (queue.map key)[i]? := by
      rw [List.getElem?_map, List.getElem?_map, hj, hx]
      exact congrArg some hkey
    have hplace := (List.getElem?_inj (by rwa [List.length_map]) hnodup).mp heq.symm
    omega
  · rintro ⟨hle, hlt⟩
    refine List.mem_map_of_mem (List.mem_iff_getElem?.mpr ⟨i - first, ?_⟩)
    have hplace : first + (i - first) = i := by omega
    rw [List.getElem?_take, if_pos (by omega), List.getElem?_drop, hplace, hx]

/-- One turn. -/
lemma Counted.succ (h : Distinct key slots start) (hpos : 0 < slots.length)
    (hcount : Counted key slots start n) : Counted key slots start (n + 1) := by
  rcases hcount with ⟨hlength, hmem⟩
  have hs : n % slots.length < slots.length := Nat.mod_lt n hpos
  have hslot : slots[n % slots.length]? =
      some (biasAt slots (n % slots.length), queueAt slots (n % slots.length)) := by
    rw [biasAt, queueAt, List.getElem?_eq_getElem hs]
    rfl
  have hqueue := h.queue (n % slots.length)
  have hplaces := hmem _ hs
  have happart := h.apart (n % slots.length)
  have hturns := @turnsBefore_succ _ slots n
  -- what the slot has given is passed over, and the rest is new
  have hpicks : schedule key slots start (n + 1) = schedule key slots start n ++
      ((queueAt slots (n % slots.length)).drop (biasAt slots (n % slots.length) *
        turnsBefore slots (n % slots.length) n)).take (biasAt slots (n % slots.length)) := by
    rw [schedule, turn, hslot]
    dsimp only
    conv_lhs => rw [← List.take_append_drop (biasAt slots (n % slots.length) *
      turnsBefore slots (n % slots.length) n) (queueAt slots (n % slots.length))]
    rw [takeFresh_append, takeFresh_of_fresh]
    · exact hqueue.sublist ((List.drop_sublist _ _).map key)
    · intro x hx
      rcases List.mem_iff_getElem?.mp hx with ⟨j, hj⟩
      rw [List.getElem?_drop] at hj
      rw [hplaces _ x hj]
      omega
    · intro x hx
      rcases List.mem_iff_getElem?.mp hx with ⟨j, hj⟩
      rw [List.getElem?_take] at hj
      split_ifs at hj with hlt
      exact (hplaces j x hj).mpr hlt
  refine ⟨?_, fun s hs' i x hx => ?_⟩
  · have hterm : ∀ s ∈ Finset.range slots.length,
        min (queueAt slots s).length (biasAt slots s * turnsBefore slots s (n + 1)) =
          min (queueAt slots s).length (biasAt slots s * turnsBefore slots s n) +
            if s = n % slots.length then (((queueAt slots (n % slots.length)).drop
              (biasAt slots (n % slots.length) * turnsBefore slots (n % slots.length) n)).take
                (biasAt slots (n % slots.length))).length else 0 := by
      intro s hs'
      rw [hturns (Finset.mem_range.mp hs')]
      split_ifs with hself
      · subst hself
        rw [List.length_take, List.length_drop, Nat.mul_succ]
        omega
      · rfl
    rw [hpicks, List.length_append, hlength, scheduled, scheduled, Finset.sum_congr rfl hterm,
      Finset.sum_add_distrib, Finset.sum_ite_eq', if_pos (Finset.mem_range.mpr hs), Nat.add_assoc]
  · rw [hpicks, List.map_append, List.mem_append, hmem s hs' i x hx, hturns hs']
    split_ifs with hself
    · subst hself
      rw [mem_picks_iff hqueue hx, Nat.mul_succ]
      omega
    · have hother : key x ∉ (((queueAt slots (n % slots.length)).drop (biasAt slots (n % slots.length) *
          turnsBefore slots (n % slots.length) n)).take (biasAt slots (n % slots.length))).map key := by
        intro hpicked
        rcases List.mem_map.mp hpicked with ⟨y, hy, hkey⟩
        have hy' := (List.drop_subset _ _) ((List.take_subset _ _) hy)
        exact hself (happart s y hy' x (List.mem_of_getElem? hx) hkey).symm
      rw [Nat.add_zero]
      exact or_iff_left hother

theorem length_schedule (h : Distinct key slots start) (hpos : 0 < slots.length) (n : ℕ) :
    (schedule key slots start n).length = scheduled slots start n := by
  have hall : Counted key slots start n := by
    induction n with
    | zero => exact counted_zero h
    | succ n ih => exact ih.succ h hpos
  exact hall.1

end Distinct

end BiasedRounds

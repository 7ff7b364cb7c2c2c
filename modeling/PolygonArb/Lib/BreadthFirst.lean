import Mathlib.Data.Finset.Card
import Mathlib.Logic.Function.Iterate
import Mathlib.Tactic.Common

/-!
# Breadth-first search with a second choice

A search from a root against the arcs, over the vertices that have a slot, to a depth limit.  A vertex
reached for the first time gets its depth and its parent arc.  A later arc into the same depth is kept as
its second choice, if it rivals the parent arc.

The queue is empty after one expansion for each slot (`search_spec`).  The parents then lead to the root
from exactly the vertices that have a route within the limit (`follow_search_iff`), by a shortest one
(`follow_search_shortest`); a second choice leads there in as many steps (`alt_search`).
-/

namespace BreadthFirst

variable {ν ε : Type*} [DecidableEq ν]

structure Search (ν ε : Type*) where
  depth : ν → Option ℕ
  parent : ν → Option (ν × ε)
  alt : ν → Option (ν × ε)
  queue : List ν

section Algorithm

variable (slots : Finset ν) (rival : ε → ε → Bool) (into : ν → List (ν × ε)) (limit : ℕ)

def start (root : ν) : Search ν ε where
  depth := Function.update (fun _ => none) root (some 0)
  parent := fun _ => none
  alt := fun _ => none
  queue := [root]

/-- An arc from `prev` to `curr`, which lies at depth `d`. -/
def visit (curr : ν) (d : ℕ) (s : Search ν ε) : ν × ε → Search ν ε
  | (prev, arc) =>
      if prev ∉ slots then s
      else
        match s.depth prev with
        | some reached =>
            if s.alt prev = none ∧ (s.parent prev).any (fun first => rival first.2 arc) = true ∧
                d + 1 = reached then
              { s with alt := Function.update s.alt prev (some (curr, arc)) }
            else s
        | none =>
            { s with
              depth := Function.update s.depth prev (some (d + 1))
              parent := Function.update s.parent prev (some (curr, arc))
              queue := s.queue ++ [prev] }

/-- The arcs into the head of the queue. -/
def expand (s : Search ν ε) : Search ν ε :=
  match s.queue with
  | [] => s
  | curr :: rest =>
      match s.depth curr with
      | none => { s with queue := rest }
      | some d =>
          if limit ≤ d then { s with queue := rest }
          else (into curr).foldl (visit slots rival curr d) { s with queue := rest }

/-- No vertex is queued twice, so there are no more expansions than slots. -/
def search (root : ν) : Search ν ε := (expand slots rival into limit)^[slots.card] (start root)

/-- The arcs of the parents down to the root, in at most `n` looks. -/
def follow (parent : ν → Option (ν × ε)) (root : ν) : ℕ → ν → List ε → Option (List ε)
  | 0, _, _ => none
  | n + 1, cur, path =>
      if cur = root then some path
      else
        match parent cur with
        | none => none
        | some (next, arc) => follow parent root n next (path ++ [arc])

end Algorithm

/-- The arcs of a route, each from a vertex with a slot. -/
inductive Route (slots : Finset ν) (into : ν → List (ν × ε)) : ν → List ε → ν → Prop
  | nil {a : ν} : Route slots into a [] a
  | cons {a b c : ν} {arc : ε} {arcs : List ε} (harc : (a, arc) ∈ into b) (hslot : a ∈ slots)
      (tail : Route slots into b arcs c) : Route slots into a (arc :: arcs) c

section Correct

variable {slots : Finset ν} {rival : ε → ε → Bool} {into : ν → List (ν × ε)} {limit : ℕ} {root : ν}
  {s s' : Search ν ε} {curr a b : ν} {arc : ν × ε} {d n : ℕ}

/-- What the marks of a search mean, at any time. -/
structure Sound (slots : Finset ν) (rival : ε → ε → Bool) (into : ν → List (ν × ε)) (limit : ℕ)
    (root : ν) (s : Search ν ε) : Prop where
  atRoot : s.depth root = some 0
  zero : ∀ a, s.depth a = some 0 → a = root
  slot : ∀ a n, s.depth a = some n → a ∈ slots ∧ n ≤ limit
  parent : ∀ a n, s.depth a = some (n + 1) →
    ∃ b arc, s.parent a = some (b, arc) ∧ (a, arc) ∈ into b ∧ s.depth b = some n
  orphan : ∀ a, s.depth a = none → s.parent a = none
  alt : ∀ a b arc, s.alt a = some (b, arc) → ∃ n first, (a, arc) ∈ into b ∧ s.depth b = some n ∧
    s.depth a = some (n + 1) ∧ s.parent a = some first ∧ rival first.2 arc = true

/-- The queue holds two adjacent levels in order, and every other vertex but the busy ones is done. -/
structure Frontier (slots : Finset ν) (into : ν → List (ν × ε)) (limit d : ℕ) (busy : ν → Prop)
    (s : Search ν ε) : Prop where
  queued : ∀ a ∈ s.queue, s.depth a = some d ∨ s.depth a = some (d + 1)
  sorted : s.queue.Pairwise fun a b => ∀ m n, s.depth a = some m → s.depth b = some n → m ≤ n
  below : ∀ a n, s.depth a = some n → n ≤ d + 1
  closed : ∀ b n, s.depth b = some n → n < limit → b ∉ s.queue → ¬ busy b →
    ∀ a arc, (a, arc) ∈ into b → a ∈ slots → ∃ m ≤ n + 1, s.depth a = some m

/-- The expansions that are still to come. -/
def pending (slots : Finset ν) (s : Search ν ε) : ℕ :=
  (slots.filter fun a => s.depth a = none).card + s.queue.length

lemma visit_cases (slots : Finset ν) (rival : ε → ε → Bool) (curr : ν) (d : ℕ) (s : Search ν ε)
    (arc : ν × ε) :
    visit slots rival curr d s arc = s ∧ (arc.1 ∈ slots → (s.depth arc.1).isSome = true) ∨
      (∃ first, s.depth arc.1 = some (d + 1) ∧ s.parent arc.1 = some first ∧
        rival first.2 arc.2 = true ∧
        visit slots rival curr d s arc =
          { s with alt := Function.update s.alt arc.1 (some (curr, arc.2)) }) ∨
      (arc.1 ∈ slots ∧ s.depth arc.1 = none ∧
        visit slots rival curr d s arc =
          { s with
            depth := Function.update s.depth arc.1 (some (d + 1))
            parent := Function.update s.parent arc.1 (some (curr, arc.2))
            queue := s.queue ++ [arc.1] }) := by
  rcases arc with ⟨prev, arc⟩
  by_cases hslot : prev ∉ slots
  · exact Or.inl ⟨if_pos hslot, fun h => absurd h hslot⟩
  rw [not_not] at hslot
  simp only [visit, hslot, not_true, if_false]
  cases hdepth : s.depth prev with
  | none => exact Or.inr (Or.inr ⟨trivial, rfl, rfl⟩)
  | some reached =>
      dsimp only
      split_ifs with hkeep
      · rcases hkeep with ⟨-, hrival, rfl⟩
        cases hparent : s.parent prev with
        | none => simp [hparent] at hrival
        | some first =>
            rw [hparent] at hrival
            exact Or.inr (Or.inl ⟨first, rfl, rfl, hrival, rfl⟩)
      · exact Or.inl ⟨rfl, fun _ => rfl⟩

/-- A depth once given stays. -/
lemma depth_visit (h : s.depth a = some n) : (visit slots rival curr d s arc).depth a = some n := by
  rcases visit_cases slots rival curr d s arc with ⟨heq, -⟩ | ⟨_, -, -, -, heq⟩ | ⟨-, hnone, heq⟩
  · rw [heq, h]
  · rw [heq]
    exact h
  · have hne : a ≠ arc.1 := by
      rintro rfl
      rw [hnone] at h
      cases h
    rw [heq]
    exact (Function.update_of_ne hne _ _).trans h

lemma depth_foldl {arcs : List (ν × ε)} (h : s.depth a = some n) :
    (arcs.foldl (visit slots rival curr d) s).depth a = some n := by
  induction arcs generalizing s with
  | nil => exact h
  | cons arc arcs ih => exact ih (depth_visit h)

lemma depth_entered {x : ν} {m : ℕ} (h : Function.update s.depth a (some n) x = some m) :
    x = a ∧ m = n ∨ x ≠ a ∧ s.depth x = some m := by
  by_cases hx : x = a
  · subst hx
    rw [Function.update_self, Option.some.injEq] at h
    exact Or.inl ⟨rfl, h.symm⟩
  · exact Or.inr ⟨hx, (Function.update_of_ne hx _ _).symm.trans h⟩

lemma Sound.visit (h : Sound slots rival into limit root s) (hcurr : s.depth curr = some d)
    (hd : d < limit) (harc : arc ∈ into curr) :
    Sound slots rival into limit root (visit slots rival curr d s arc) := by
  rcases visit_cases slots rival curr d s arc with ⟨heq, -⟩ | ⟨first, hdepth, hfirst, hrival, heq⟩ |
    ⟨hslot, hnone, heq⟩
  · rw [heq]
    exact h
  · rw [heq]
    refine ⟨h.atRoot, h.zero, h.slot, h.parent, h.orphan, ?_⟩
    intro a b e halt
    by_cases ha : a = arc.1
    · subst ha
      have hnew : Function.update s.alt arc.1 (some (curr, arc.2)) arc.1 = some (b, e) := halt
      rw [Function.update_self, Option.some.injEq, Prod.mk.injEq] at hnew
      rcases hnew with ⟨rfl, rfl⟩
      exact ⟨d, first, harc, hcurr, hdepth, hfirst, hrival⟩
    · exact h.alt a b e ((Function.update_of_ne ha _ _).symm.trans halt)
  · have hother : ∀ {x m}, s.depth x = some m → x ≠ arc.1 := by
      rintro x m hx rfl
      rw [hnone] at hx
      cases hx
    have hold : ∀ {x m}, s.depth x = some m →
        Function.update s.depth arc.1 (some (d + 1)) x = some m :=
      fun hx => (Function.update_of_ne (hother hx) _ _).trans hx
    have hparent : ∀ {x m}, s.depth x = some m →
        Function.update s.parent arc.1 (some (curr, arc.2)) x = s.parent x :=
      fun hx => Function.update_of_ne (hother hx) _ _
    rw [heq]
    refine ⟨hold h.atRoot, ?_, ?_, ?_, ?_, ?_⟩
    · intro a ha
      rcases depth_entered ha with ⟨-, hm⟩ | ⟨-, ha⟩
      · cases hm
      · exact h.zero a ha
    · intro a m ha
      rcases depth_entered ha with ⟨rfl, rfl⟩ | ⟨-, ha⟩
      · exact ⟨hslot, hd⟩
      · exact h.slot a m ha
    · intro a m ha
      rcases depth_entered ha with ⟨rfl, hm⟩ | ⟨-, ha⟩
      · obtain rfl : m = d := Nat.succ.inj hm
        exact ⟨curr, arc.2, Function.update_self _ _ _, harc, hold hcurr⟩
      · rcases h.parent a m ha with ⟨b, e, hp, hmem, hb⟩
        exact ⟨b, e, (hparent ha).trans hp, hmem, hold hb⟩
    · intro a ha
      have hne : a ≠ arc.1 := by
        rintro rfl
        have hself : Function.update s.depth arc.1 (some (d + 1)) arc.1 = none := ha
        rw [Function.update_self] at hself
        cases hself
      exact (Function.update_of_ne hne _ _).trans
        (h.orphan a ((Function.update_of_ne hne _ _).symm.trans ha))
    · intro a b e halt
      rcases h.alt a b e halt with ⟨m, first, hmem, hb, ha, hfirst, hrival⟩
      exact ⟨m, first, hmem, hold hb, hold ha, (hparent ha).trans hfirst, hrival⟩

lemma Frontier.visit {busy : ν → Prop} (h : Frontier slots into limit d busy s) :
    Frontier slots into limit d busy (visit slots rival curr d s arc) := by
  have hclosed : ∀ b n, s.depth b = some n → n < limit → b ∉ s.queue → ¬ busy b →
      ∀ a e, (a, e) ∈ into b → a ∈ slots →
        ∃ m ≤ n + 1, (BreadthFirst.visit slots rival curr d s arc).depth a = some m := by
    intro b n hb hn hqueue hbusy a e hmem hslot
    rcases h.closed b n hb hn hqueue hbusy a e hmem hslot with ⟨m, hm, ha⟩
    exact ⟨m, hm, depth_visit ha⟩
  rcases visit_cases slots rival curr d s arc with ⟨heq, -⟩ | ⟨first, -, -, -, heq⟩ |
    ⟨hslot, hnone, heq⟩
  · rw [heq]
    exact h
  · rw [heq] at hclosed ⊢
    exact ⟨h.queued, h.sorted, h.below, hclosed⟩
  · have hqueue : ∀ a ∈ s.queue, a ≠ arc.1 := by
      rintro a ha rfl
      rcases h.queued _ ha with hd | hd
      all_goals
        rw [hnone] at hd
        cases hd
    have hback : ∀ {x m}, x ≠ arc.1 → Function.update s.depth arc.1 (some (d + 1)) x = some m →
        s.depth x = some m := fun hx hm => (Function.update_of_ne hx _ _).symm.trans hm
    rw [heq] at hclosed ⊢
    refine ⟨?_, ?_, ?_, ?_⟩
    · intro a ha
      dsimp only
      rcases List.mem_append.mp ha with hold | hnew
      · rw [Function.update_of_ne (hqueue a hold)]
        exact h.queued a hold
      · rw [List.mem_singleton.mp hnew, Function.update_self]
        exact Or.inr rfl
    · refine List.pairwise_append.mpr ⟨?_, List.pairwise_singleton _ _, ?_⟩
      · refine h.sorted.imp_of_mem fun hx hy hle m n hm hn => ?_
        exact hle m n (hback (hqueue _ hx) hm) (hback (hqueue _ hy) hn)
      · intro x hx y hy m n hm hn
        rw [List.mem_singleton.mp hy] at hn
        rcases depth_entered hn with ⟨-, rfl⟩ | ⟨hne, -⟩
        · exact h.below x m (hback (hqueue x hx) hm)
        · exact absurd rfl hne
    · intro a m ha
      rcases depth_entered ha with ⟨-, hm⟩ | ⟨-, ha⟩
      · exact hm.le
      · exact h.below a m ha
    · intro b m hb hm hnotin hbusy
      have hne : b ≠ arc.1 := by
        rintro rfl
        exact hnotin (List.mem_append_right _ (List.mem_singleton_self _))
      exact hclosed b m (hback hne hb) hm (fun hin => hnotin (List.mem_append_left _ hin)) hbusy

lemma pending_visit : pending slots (visit slots rival curr d s arc) = pending slots s := by
  rcases visit_cases slots rival curr d s arc with ⟨heq, -⟩ | ⟨first, -, -, -, heq⟩ |
    ⟨hslot, hnone, heq⟩
  · rw [heq]
  · rw [heq]
    rfl
  · have hmem : arc.1 ∈ slots.filter fun a => s.depth a = none :=
      Finset.mem_filter.mpr ⟨hslot, hnone⟩
    have hrest : (slots.filter fun a => Function.update s.depth arc.1 (some (d + 1)) a = none) =
        (slots.filter fun a => s.depth a = none).erase arc.1 := by
      ext a
      rw [Finset.mem_erase, Finset.mem_filter, Finset.mem_filter]
      by_cases hne : a = arc.1
      · subst hne
        simp
      · simp [hne]
    have hpos : 0 < (slots.filter fun a => s.depth a = none).card := Finset.card_pos.mpr ⟨_, hmem⟩
    rw [heq, pending, pending]
    dsimp only
    rw [hrest, Finset.card_erase_of_mem hmem, List.length_append, List.length_singleton]
    omega

lemma depth_visit_self (harc : arc.1 ∈ slots) :
    ((visit slots rival curr d s arc).depth arc.1).isSome = true := by
  rcases visit_cases slots rival curr d s arc with ⟨heq, hsome⟩ | ⟨first, hdepth, -, -, heq⟩ |
    ⟨-, -, heq⟩
  · rw [heq]
    exact hsome harc
  · rw [heq]
    dsimp only
    rw [hdepth]
    rfl
  · rw [heq]
    dsimp only
    rw [Function.update_self]
    rfl

/-- The state while the arcs into a vertex are visited. -/
structure Scan (slots : Finset ν) (rival : ε → ε → Bool) (into : ν → List (ν × ε)) (limit : ℕ)
    (root curr : ν) (d left : ℕ) (s : Search ν ε) : Prop where
  sound : Sound slots rival into limit root s
  frontier : Frontier slots into limit d (· = curr) s
  curr : s.depth curr = some d
  left : pending slots s = left

/-- The arcs into a vertex, visited in turn. -/
lemma Scan.foldl {left : ℕ} {arcs : List (ν × ε)} (h : Scan slots rival into limit root curr d left s)
    (hd : d < limit) (harcs : ∀ arc ∈ arcs, arc ∈ into curr) :
    Scan slots rival into limit root curr d left (arcs.foldl (visit slots rival curr d) s) ∧
      ∀ arc ∈ arcs, arc.1 ∈ slots →
        ((arcs.foldl (visit slots rival curr d) s).depth arc.1).isSome = true := by
  induction arcs generalizing s with
  | nil => exact ⟨h, fun _ hmem => absurd hmem List.not_mem_nil⟩
  | cons arc arcs ih =>
      rw [List.forall_mem_cons] at harcs
      have hnext : Scan slots rival into limit root curr d left (visit slots rival curr d s arc) :=
        ⟨h.sound.visit h.curr hd harcs.1, h.frontier.visit, depth_visit h.curr,
          pending_visit.trans h.left⟩
      rcases ih hnext harcs.2 with ⟨hscan, hrest⟩
      refine ⟨hscan, ?_⟩
      rintro e (_ | ⟨_, he⟩) hslot
      · rcases Option.isSome_iff_exists.mp (depth_visit_self hslot) with ⟨m, hm⟩
        rw [List.foldl_cons, depth_foldl hm]
        rfl
      · exact hrest e he hslot

/-- Between two expansions. -/
structure Ready (slots : Finset ν) (rival : ε → ε → Bool) (into : ν → List (ν × ε)) (limit : ℕ)
    (root : ν) (s : Search ν ε) : Prop where
  sound : Sound slots rival into limit root s
  frontier : ∃ d, Frontier slots into limit d (fun _ => False) s

lemma ready_start (hroot : root ∈ slots) : Ready slots rival into limit root (start root) := by
  have hdepth : ∀ a n, (start root : Search ν ε).depth a = some n → a = root ∧ n = 0 := by
    intro a n ha
    by_cases hne : a = root
    · subst hne
      have hself : Function.update (fun _ : ν => (none : Option ℕ)) a (some 0) a = some n := ha
      rw [Function.update_self, Option.some.injEq] at hself
      exact ⟨rfl, hself.symm⟩
    · have hother : Function.update (fun _ : ν => (none : Option ℕ)) root (some 0) a = some n := ha
      rw [Function.update_of_ne hne] at hother
      cases hother
  have hself : (start root : Search ν ε).depth root = some 0 := by simp [start]
  refine ⟨⟨hself, ?_, ?_, ?_, fun _ _ => rfl, ?_⟩, 0, ?_, List.pairwise_singleton _ _, ?_, ?_⟩
  · exact fun a ha => (hdepth a 0 ha).1
  · intro a n ha
    rcases hdepth a n ha with ⟨rfl, rfl⟩
    exact ⟨hroot, Nat.zero_le _⟩
  · intro a n ha
    cases (hdepth a _ ha).2
  · intro a b arc ha
    cases ha
  · intro a ha
    rw [List.mem_singleton.mp ha]
    exact Or.inl hself
  · intro a n ha
    rw [(hdepth a n ha).2]
    exact Nat.zero_le _
  · intro b n hb _ hqueue
    exact absurd (List.mem_singleton.mpr (hdepth b n hb).1) hqueue

omit [DecidableEq ν] in
/-- Without the head the queue still holds two adjacent levels, from that of the head on. -/
lemma Frontier.pop {rest : List ν} {e : ℕ} (h : Frontier slots into limit e (fun _ => False) s)
    (hqueue : s.queue = curr :: rest) (hcurr : s.depth curr = some d) :
    Frontier slots into limit d (· = curr) { s with queue := rest } := by
  have hsorted := h.sorted
  rw [hqueue, List.pairwise_cons] at hsorted
  have hlevel : d = e ∨ d = e + 1 := by
    rcases h.queued curr (hqueue ▸ List.mem_cons_self) with he | he
    all_goals
      rw [hcurr, Option.some.injEq] at he
      omega
  refine ⟨?_, hsorted.2, ?_, ?_⟩
  · intro a ha
    have hafter : ∀ n, s.depth a = some n → d ≤ n := fun n hn => hsorted.1 a ha d n hcurr hn
    dsimp only
    rcases h.queued a (hqueue ▸ List.mem_cons_of_mem _ ha) with he | he
    · have hle := hafter e he
      rcases hlevel with rfl | rfl
      · exact Or.inl he
      · omega
    · rcases hlevel with rfl | rfl
      · exact Or.inr he
      · exact Or.inl he
  · intro a n ha
    have hle := h.below a n ha
    omega
  · intro b n hb hn hin hbusy
    refine h.closed b n hb hn ?_ not_false
    rw [hqueue, List.mem_cons, not_or]
    exact ⟨hbusy, hin⟩

lemma expand_spec (h : Ready slots rival into limit root s) (hne : s.queue ≠ []) :
    Ready slots rival into limit root (expand slots rival into limit s) ∧
      pending slots (expand slots rival into limit s) + 1 = pending slots s := by
  rcases List.exists_cons_of_ne_nil hne with ⟨curr, rest, hqueue⟩
  rcases h.frontier with ⟨e, hfront⟩
  have hsome : ∃ d, s.depth curr = some d := by
    rcases hfront.queued curr (hqueue ▸ List.mem_cons_self) with hd | hd
    exacts [⟨e, hd⟩, ⟨e + 1, hd⟩]
  rcases hsome with ⟨d, hcurr⟩
  have hpop := hfront.pop hqueue hcurr
  have hsound : Sound slots rival into limit root { s with queue := rest } :=
    ⟨h.sound.atRoot, h.sound.zero, h.sound.slot, h.sound.parent, h.sound.orphan, h.sound.alt⟩
  have hpending : pending slots { s with queue := rest } + 1 = pending slots s := by
    rw [pending, pending, hqueue, List.length_cons]
    rfl
  by_cases hlimit : limit ≤ d
  · have heq : expand slots rival into limit s = { s with queue := rest } := by
      simp only [expand, hqueue, hcurr, if_pos hlimit]
    rw [heq]
    refine ⟨⟨hsound, d, hpop.queued, hpop.sorted, hpop.below, ?_⟩, hpending⟩
    intro b n hb hn hin _
    refine hpop.closed b n hb hn hin ?_
    rintro rfl
    have hdn := hcurr.symm.trans hb
    rw [Option.some.injEq] at hdn
    omega
  · have heq : expand slots rival into limit s =
        (into curr).foldl (visit slots rival curr d) { s with queue := rest } := by
      simp only [expand, hqueue, hcurr, if_neg hlimit]
    have hscan : Scan slots rival into limit root curr d (pending slots { s with queue := rest })
        { s with queue := rest } := ⟨hsound, hpop, hcurr, rfl⟩
    rcases hscan.foldl (Nat.lt_of_not_le hlimit) fun arc harc => harc with ⟨hdone, hseen⟩
    rw [heq, hdone.left]
    refine ⟨⟨hdone.sound, d, hdone.frontier.queued, hdone.frontier.sorted, hdone.frontier.below, ?_⟩,
      hpending⟩
    intro b n hb hn hin _ a arc harc hslot
    by_cases hbcurr : b = curr
    · subst hbcurr
      have hdn := hdone.curr.symm.trans hb
      rw [Option.some.injEq] at hdn
      rcases Option.isSome_iff_exists.mp (hseen (a, arc) harc hslot) with ⟨m, hm⟩
      exact ⟨m, hdn ▸ hdone.frontier.below a m hm, hm⟩
    · exact hdone.frontier.closed b n hb hn hin hbcurr a arc harc hslot

/-- The queue is empty after one expansion for each slot. -/
lemma search_spec (hroot : root ∈ slots) :
    Ready slots rival into limit root (search slots rival into limit root) ∧
      (search slots rival into limit root).queue = [] := by
  have hrun : ∀ k, Ready slots rival into limit root
        ((expand slots rival into limit)^[k] (start root)) ∧
      (((expand slots rival into limit)^[k] (start root)).queue = [] ∨
        pending slots ((expand slots rival into limit)^[k] (start root)) + k = slots.card) := by
    intro k
    induction k with
    | zero =>
        refine ⟨ready_start hroot, Or.inr ?_⟩
        have hlabelled : (slots.filter fun a => (start root : Search ν ε).depth a = none) =
            slots.erase root := by
          ext a
          rw [Finset.mem_filter, Finset.mem_erase]
          by_cases hne : a = root <;> simp [start, hne]
        have hpos : 0 < slots.card := Finset.card_pos.mpr ⟨root, hroot⟩
        show pending slots (start root) + 0 = slots.card
        rw [pending, hlabelled, Finset.card_erase_of_mem hroot]
        show slots.card - 1 + 1 + 0 = slots.card
        omega
    | succ k ih =>
        rw [Function.iterate_succ_apply']
        rcases ih with ⟨hready, hqueue⟩
        by_cases hempty : ((expand slots rival into limit)^[k] (start root)).queue = []
        · have hstop : ∀ t : Search ν ε, t.queue = [] → expand slots rival into limit t = t := by
            intro t ht
            simp only [expand, ht]
          rw [hstop _ hempty]
          exact ⟨hready, Or.inl hempty⟩
        · rcases expand_spec hready hempty with ⟨hnext, hpending⟩
          refine ⟨hnext, Or.inr ?_⟩
          rcases hqueue with hnil | hleft
          · exact absurd hnil hempty
          · omega
  rcases hrun slots.card with ⟨hready, hqueue⟩
  refine ⟨hready, ?_⟩
  rcases hqueue with hnil | hleft
  · exact hnil
  · refine List.length_eq_zero_iff.mp ?_
    rw [pending] at hleft
    rw [search]
    omega

omit [DecidableEq ν] in
/-- Every level up to that of a vertex has a vertex. -/
lemma Sound.depth_lt_card (h : Sound slots rival into limit root s) (ha : s.depth a = some n) :
    n < slots.card := by
  have hlevel : ∀ k ≤ n, ∃ x, s.depth x = some k := by
    induction n generalizing a with
    | zero =>
        intro k hk
        exact ⟨a, by rw [ha, Nat.le_zero.mp hk]⟩
    | succ n ih =>
        intro k hk
        rcases h.parent a n ha with ⟨b, arc, -, -, hb⟩
        rcases Nat.lt_or_ge n k with hlt | hle
        · exact ⟨a, by rw [ha, Nat.le_antisymm hk hlt]⟩
        · exact ih hb k hle
  have hsub : Finset.range (n + 1) ⊆ slots.image fun x => (s.depth x).getD 0 := by
    intro k hk
    rcases hlevel k (Nat.le_of_lt_succ (Finset.mem_range.mp hk)) with ⟨x, hx⟩
    exact Finset.mem_image.mpr ⟨x, (h.slot x k hx).1, by rw [hx, Option.getD_some]⟩
  have hcard := (Finset.card_le_card hsub).trans Finset.card_image_le
  rwa [Finset.card_range] at hcard

/-- The parents of a vertex lead to the root in as many steps as it is deep. -/
lemma Sound.follow_eq (h : Sound slots rival into limit root s) (ha : s.depth a = some n) {bound : ℕ}
    (hbound : n < bound) : ∃ arcs, Route slots into a arcs root ∧ arcs.length = n ∧
      ∀ path, follow s.parent root bound a path = some (path ++ arcs) := by
  induction n generalizing a bound with
  | zero =>
      cases bound with
      | zero => omega
      | succ bound =>
          have hroot := h.zero a ha
          subst hroot
          refine ⟨[], .nil, rfl, fun path => ?_⟩
          rw [follow, if_pos rfl, List.append_nil]
  | succ n ih =>
      cases bound with
      | zero => omega
      | succ bound =>
          rcases h.parent a n ha with ⟨b, arc, hparent, harc, hb⟩
          rcases ih hb (Nat.lt_of_succ_lt_succ hbound) with ⟨arcs, hroute, hlen, hfollow⟩
          have hne : a ≠ root := by
            rintro rfl
            rw [h.atRoot] at ha
            cases ha
          refine ⟨arc :: arcs, .cons harc (h.slot a _ ha).1 hroute, ?_, fun path => ?_⟩
          · rw [List.length_cons, hlen]
          · rw [follow, if_neg hne, hparent]
            dsimp only
            rw [hfollow, List.append_assoc, List.singleton_append]

omit [DecidableEq ν] in
/-- A route within the limit bounds the depth of its first vertex. -/
lemma Ready.depth_le (h : Ready slots rival into limit root s) (hqueue : s.queue = [])
    {arcs : List ε} (hroute : Route slots into a arcs root) (hlimit : arcs.length ≤ limit) :
    ∃ m ≤ arcs.length, s.depth a = some m := by
  induction hroute with
  | nil => exact ⟨0, Nat.le_refl _, h.sound.atRoot⟩
  | cons harc hslot tail ih =>
      rw [List.length_cons] at hlimit ⊢
      rcases ih h (Nat.le_of_succ_le hlimit) with ⟨m, hm, hdepth⟩
      rcases h.frontier with ⟨d, hfront⟩
      have hclosed := hfront.closed _ m hdepth (by omega) (by rw [hqueue]; exact List.not_mem_nil)
        not_false _ _ harc hslot
      rcases hclosed with ⟨k, hk, hdepth'⟩
      exact ⟨k, by omega, hdepth'⟩

section Results

variable (rival : ε → ε → Bool) (into : ν → List (ν × ε)) (limit : ℕ) (hroot : root ∈ slots)
include hroot

/-- A vertex leads to the root exactly when some route within the limit does. -/
theorem follow_search_iff (a : ν) :
    (∃ path, follow (search slots rival into limit root).parent root slots.card a [] = some path) ↔
      ∃ arcs, Route slots into a arcs root ∧ arcs.length ≤ limit := by
  have hspec : Ready slots rival into limit root _ ∧ _ := search_spec hroot
  rcases hspec with ⟨hready, hqueue⟩
  constructor
  · rintro ⟨path, hpath⟩
    cases hdepth : (search slots rival into limit root).depth a with
    | none =>
        have hne : a ≠ root := by
          rintro rfl
          rw [hready.sound.atRoot] at hdepth
          cases hdepth
        cases hcard : slots.card with
        | zero =>
            rw [hcard, follow] at hpath
            cases hpath
        | succ n =>
            rw [hcard, follow, if_neg hne, hready.sound.orphan a hdepth] at hpath
            cases hpath
    | some n =>
        rcases hready.sound.follow_eq hdepth (hready.sound.depth_lt_card hdepth) with
          ⟨arcs, hroute, hlen, -⟩
        exact ⟨arcs, hroute, hlen.trans_le (hready.sound.slot a n hdepth).2⟩
  · rintro ⟨arcs, hroute, hlimit⟩
    rcases hready.depth_le hqueue hroute hlimit with ⟨m, -, hdepth⟩
    rcases hready.sound.follow_eq hdepth (hready.sound.depth_lt_card hdepth) with ⟨path, -, -, hpath⟩
    exact ⟨[] ++ path, hpath []⟩

/-- The parents make a shortest route. -/
theorem follow_search_shortest {path : List ε}
    (hpath : follow (search slots rival into limit root).parent root slots.card a [] = some path) :
    Route slots into a path root ∧ path.length ≤ limit ∧
      ∀ arcs, Route slots into a arcs root → path.length ≤ arcs.length := by
  have hspec : Ready slots rival into limit root _ ∧ _ := search_spec hroot
  rcases hspec with ⟨hready, hqueue⟩
  rcases (follow_search_iff rival into limit hroot a).mp ⟨path, hpath⟩ with ⟨arcs, hroute, hlimit⟩
  rcases hready.depth_le hqueue hroute hlimit with ⟨n, -, hdepth⟩
  rcases hready.sound.follow_eq hdepth (hready.sound.depth_lt_card hdepth) with
    ⟨route, hroute', hlen, hfollow⟩
  have heq : path = route := Option.some.inj (hpath.symm.trans (hfollow []))
  have hle := (hready.sound.slot a n hdepth).2
  rw [heq]
  refine ⟨hroute', hlen.trans_le hle, fun other hother => ?_⟩
  rcases Nat.lt_or_ge limit other.length with hlong | hshort
  · omega
  · rcases hready.depth_le hqueue hother hshort with ⟨m, hm, hdepth'⟩
    have hnm := hdepth.symm.trans hdepth'
    rw [Option.some.injEq] at hnm
    omega

/-- A second choice leads to the root in as many steps as the parents, by an arc that rivals the first
one of theirs. -/
theorem alt_search {arc : ε} (halt : (search slots rival into limit root).alt a = some (b, arc)) :
    a ≠ root ∧ ∃ first rest tail,
      follow (search slots rival into limit root).parent root slots.card a [] = some (first :: rest) ∧
        rival first arc = true ∧
        follow (search slots rival into limit root).parent root (slots.card - 1) b [arc] =
          some (arc :: tail) ∧
        Route slots into a (arc :: tail) root ∧ tail.length = rest.length := by
  have hspec : Ready slots rival into limit root _ ∧ _ := search_spec hroot
  rcases hspec with ⟨hready, -⟩
  rcases hready.sound.alt a b arc halt with ⟨n, first, harc, hb, ha, hfirst, hrival⟩
  rcases hready.sound.parent a n ha with ⟨c, e, hparent, -, hc⟩
  have hcard := hready.sound.depth_lt_card ha
  have hne : a ≠ root := by
    rintro rfl
    rw [hready.sound.atRoot] at ha
    cases ha
  have hsame : first = (c, e) := Option.some.inj (hfirst.symm.trans hparent)
  have hroom : n < slots.card - 1 := by omega
  rcases hready.sound.follow_eq hc hroom with ⟨rest, -, hrest, hfollow⟩
  rcases hready.sound.follow_eq hb hroom with ⟨tail, hroute, htail, hfollow'⟩
  refine ⟨hne, e, rest, tail, ?_, ?_, hfollow' [arc], ?_, ?_⟩
  · have hsplit : slots.card = (slots.card - 1) + 1 := by omega
    rw [hsplit, follow, if_neg hne, hparent]
    exact hfollow [e]
  · rw [← hrival, hsame]
  · exact .cons harc (hready.sound.slot a _ ha).1 hroute
  · rw [htail, hrest]

end Results

end Correct

end BreadthFirst

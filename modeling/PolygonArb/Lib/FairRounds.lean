import PolygonArb.Lib.Selection

/-!
# Fair rounds

`roundRobin` takes from several lists in turn.  When every list is what is left of the group of its slot, each
round takes one element from every list that has one: a list visited in this round has given one more
than a list that still waits, and no slot has given more than that (`Fair`).  So a slot with elements left over
has given at most one less than any other, and what a slot has given is a prefix of its group
(`roundRobin_fair`).
-/

namespace Selection

variable {α κ : Type*} [DecidableEq κ]

/-- What has been selected of a slot. -/
def taken (slot : α → κ) (selected : List α) (s : κ) : List α := selected.filter fun a => slot a = s

/-- In round `r` the lists in `done` have been visited and those in `todo` have not. -/
structure Fair (slot : α → κ) (group : κ → List α) (r : ℕ) (done todo : List (List α))
    (selected : List α) : Prop where
  isPrefix : ∀ s, taken slot selected s <+: group s
  bounded : ∀ s, (taken slot selected s).length ≤ r + 1
  visited : ∀ l ∈ done, ∀ x ∈ l, taken slot selected (slot x) ++ l = group (slot x) ∧
    (taken slot selected (slot x)).length = r + 1
  waiting : ∀ l ∈ todo, ∀ x ∈ l, taken slot selected (slot x) ++ l = group (slot x) ∧
    (taken slot selected (slot x)).length = r
  apart : (done ++ todo).Pairwise fun l l' => ∀ x ∈ l, ∀ y ∈ l', slot x ≠ slot y

variable {slot : α → κ} {group : κ → List α} {r : ℕ} {done todo : List (List α)} {selected : List α}

lemma taken_concat (x : α) (s : κ) :
    taken slot (selected ++ [x]) s = if slot x = s then taken slot selected s ++ [x]
      else taken slot selected s := by
  rw [taken, List.filter_append]
  by_cases hs : slot x = s
  · rw [if_pos hs, List.filter_cons_of_pos (by simpa using hs)]
    rfl
  · rw [if_neg hs, List.filter_cons_of_neg (by simpa using hs)]
    exact List.append_nil _

lemma taken_concat_self (x : α) :
    taken slot (selected ++ [x]) (slot x) = taken slot selected (slot x) ++ [x] := by
  rw [taken_concat, if_pos rfl]

lemma taken_concat_of_ne {x : α} {s : κ} (h : slot x ≠ s) :
    taken slot (selected ++ [x]) s = taken slot selected s := by
  rw [taken_concat, if_neg h]

namespace Fair

/-- The order of the lists not visited does not matter. -/
lemma todo_perm (h : Fair slot group r done todo selected) {todo' : List (List α)}
    (hperm : todo'.Perm todo) : Fair slot group r done todo' selected where
  isPrefix := h.isPrefix
  bounded := h.bounded
  visited := h.visited
  waiting := fun l hl => h.waiting l (hperm.subset hl)
  apart := ((hperm.append_left done).pairwise_iff fun hxy y hy x hx => (hxy x hx y hy).symm).mpr h.apart

/-- A list that ran out is forgotten. -/
lemma drop_nil (h : Fair slot group r (done ++ [[]]) todo selected) :
    Fair slot group r done todo selected where
  isPrefix := h.isPrefix
  bounded := h.bounded
  visited := fun l hl => h.visited l (List.mem_append_left _ hl)
  waiting := h.waiting
  apart := by
    refine h.apart.sublist ?_
    rw [List.append_assoc]
    exact (List.sublist_append_right [[]] todo).append_left done

/-- A visit takes the first element of a list. -/
lemma visit (hslot : ∀ s, ∀ a ∈ group s, slot a = s) {x : α} {list : List α}
    (h : Fair slot group r done ((x :: list) :: todo) selected) :
    Fair slot group r (done ++ [list]) todo (selected ++ [x]) := by
  have hx := h.waiting (x :: list) List.mem_cons_self x List.mem_cons_self
  have hsame : ∀ y ∈ list, slot y = slot x := by
    intro y hy
    refine hslot (slot x) y ?_
    rw [← hx.1]
    exact List.mem_append_right _ (List.mem_cons_of_mem x hy)
  have hdone : ∀ l ∈ done, ∀ y ∈ l, slot x ≠ slot y := by
    intro l hl y hy
    have hpair := (List.pairwise_append.mp h.apart).2.2 l hl (x :: list) List.mem_cons_self
    exact (hpair y hy x List.mem_cons_self).symm
  have htodo : ∀ l ∈ todo, ∀ y ∈ l, slot x ≠ slot y := by
    intro l hl y hy
    have hpair := (List.pairwise_cons.mp (List.pairwise_append.mp h.apart).2.1).1 l hl
    exact hpair x List.mem_cons_self y hy
  refine ⟨?_, ?_, ?_, ?_, ?_⟩
  · intro s
    by_cases hs : slot x = s
    · subst hs
      rw [taken_concat_self, ← hx.1]
      exact ⟨list, by simp⟩
    · rw [taken_concat_of_ne hs]
      exact h.isPrefix s
  · intro s
    by_cases hs : slot x = s
    · subst hs
      rw [taken_concat_self, List.length_append, hx.2]
      rfl
    · rw [taken_concat_of_ne hs]
      exact h.bounded s
  · intro l hl y hy
    rw [List.mem_append, List.mem_singleton] at hl
    rcases hl with hl | rfl
    · rw [taken_concat_of_ne (hdone l hl y hy)]
      exact h.visited l hl y hy
    · rw [hsame y hy, taken_concat_self, List.append_assoc, List.length_append, hx.2]
      exact ⟨hx.1, rfl⟩
  · intro l hl y hy
    rw [taken_concat_of_ne (htodo l hl y hy)]
    exact h.waiting l (List.mem_cons_of_mem _ hl) y hy
  · rw [List.append_assoc, List.singleton_append]
    rcases List.pairwise_append.mp h.apart with ⟨hd, ht, hdt⟩
    rw [List.pairwise_cons] at ht
    refine List.pairwise_append.mpr ⟨hd, List.pairwise_cons.mpr ⟨?_, ht.2⟩, ?_⟩
    · intro l hl a ha
      exact ht.1 l hl a (List.mem_cons_of_mem x ha)
    · intro l hl l' hl' a ha b hb
      rcases List.mem_cons.mp hl' with rfl | hl'
      · exact hdt l hl (x :: l') List.mem_cons_self a ha b (List.mem_cons_of_mem x hb)
      · exact hdt l hl l' (List.mem_cons_of_mem _ hl') a ha b hb

/-- The lists visited in a round wait in the next one. -/
lemma next_round (h : Fair slot group r done [] selected) : Fair slot group (r + 1) [] done selected where
  isPrefix := h.isPrefix
  bounded := fun s => (h.bounded s).trans (Nat.le_succ _)
  visited := by simp
  waiting := h.visited
  apart := by
    have hapart := h.apart
    rw [List.append_nil] at hapart
    exact hapart

/-- A sweep visits every list, or stops because enough is selected. -/
lemma sweep (hslot : ∀ s, ∀ a ∈ group s, slot a = s) (cap fuel : ℕ) (hfuel : todo.length ≤ fuel)
    (h : Fair slot group r done todo selected) :
    ∃ done' todo', (Selection.sweep cap fuel done todo selected).1 = done' ++ todo' ∧
      Fair slot group r done' todo' (Selection.sweep cap fuel done todo selected).2 ∧
      (todo' = [] ∨ cap ≤ (Selection.sweep cap fuel done todo selected).2.length) := by
  induction fuel generalizing done todo selected with
  | zero =>
      have hnil : todo = [] := List.eq_nil_of_length_eq_zero (Nat.le_zero.mp hfuel)
      exact ⟨done, todo, rfl, h, .inl hnil⟩
  | succ fuel ih =>
      cases todo with
      | nil =>
          refine ⟨done, [], ?_, h, .inl rfl⟩
          rw [Selection.sweep, List.append_nil]
      | cons list rest =>
          rw [List.length_cons] at hfuel
          have hrest : (replaceByLast rest).length ≤ fuel := by
            rw [length_replaceByLast]
            omega
          cases list with
          | nil =>
              have hskip : Fair slot group r (done ++ [[]]) rest selected := by
                refine ⟨h.isPrefix, h.bounded, ?_, fun l hl => h.waiting l (List.mem_cons_of_mem _ hl), ?_⟩
                · intro l hl x hx
                  rw [List.mem_append, List.mem_singleton] at hl
                  rcases hl with hl | rfl
                  · exact h.visited l hl x hx
                  · exact absurd hx List.not_mem_nil
                · rw [List.append_assoc]
                  exact h.apart
              exact ih hrest (hskip.drop_nil.todo_perm (replaceByLast_perm rest))
          | cons x list =>
              have hvisit := h.visit hslot
              rw [Selection.sweep]
              split_ifs with hfull hempty
              · exact ⟨done, (x :: list) :: rest, rfl, h, .inr hfull⟩
              · rw [List.isEmpty_iff] at hempty
                subst hempty
                exact ih hrest (hvisit.drop_nil.todo_perm (replaceByLast_perm rest))
              · exact ih (by omega) hvisit

end Fair

lemma roundRobin_of_full {cap : ℕ} (fuel : ℕ) (active : List (List α)) (hfull : cap ≤ selected.length) :
    roundRobin cap fuel active selected = selected := by
  cases fuel with
  | zero => rfl
  | succ fuel =>
      rw [roundRobin, if_neg]
      intro hgo
      omega

/-- Rounds over lists apart stay fair, and what is not selected is still in its list. -/
theorem roundRobin_fair (hslot : ∀ s, ∀ a ∈ group s, slot a = s) (cap fuel : ℕ) {active : List (List α)}
    (h : Fair slot group r [] active selected) :
    ∃ r' done todo, Fair slot group r' done todo (roundRobin cap fuel active selected) ∧
      (roundRobin cap fuel active selected ++ (done ++ todo).flatten).Perm
        (selected ++ active.flatten) := by
  induction fuel generalizing r active selected with
  | zero => exact ⟨r, [], active, h, .refl _⟩
  | succ fuel ih =>
      rw [roundRobin]
      split_ifs with hgo
      · have hperm := sweep_perm cap active.length [] active selected
        rcases h.sweep hslot cap active.length le_rfl with ⟨done', todo', hlists, hfair, hend⟩
        dsimp only
        rw [hlists] at hperm ⊢
        rcases hend with rfl | hfull
        · rw [List.append_nil] at hperm ⊢
          rcases ih hfair.next_round with ⟨r', done, todo, hfair', hperm'⟩
          exact ⟨r', done, todo, hfair', hperm'.trans hperm⟩
        · rw [roundRobin_of_full fuel _ hfull]
          exact ⟨r, done', todo', hfair, hperm⟩
      · exact ⟨r, [], active, h, .refl _⟩

/-- A slot with an element left over has given at most one less than any other. -/
lemma Fair.length_taken_le (h : Fair slot group r done todo selected) {a : α}
    (ha : a ∈ (done ++ todo).flatten) (s : κ) :
    (taken slot selected s).length ≤ (taken slot selected (slot a)).length + 1 := by
  have hs := h.bounded s
  rcases List.mem_flatten.mp ha with ⟨l, hl, hal⟩
  rcases List.mem_append.mp hl with hl | hl
  · have hcount := (h.visited l hl a hal).2
    omega
  · have hcount := (h.waiting l hl a hal).2
    omega

end Selection

import Mathlib.Data.List.Induction
import Mathlib.Data.List.Nodup
import Mathlib.Data.List.Perm.Subperm
import Mathlib.Order.Nat

/-!
# Selecting from lists without repetition

Three ways to build a list, each with what it keeps.

* `keepPreferred` — one element for every key, the preferred one.
* `appendNew` — append what has a new key, until the list is full.
* `roundRobin` — take the first of every list in turn, until enough are taken.  A list that runs out
  is replaced by the last one, which is then taken from in the same round.

The first two make keys distinct; the third moves elements and never copies one, so keys that are
distinct stay distinct.
-/

namespace Selection

variable {α κ : Type*}

/-- A new key at the end. -/
lemma nodup_concat_key {keys : List κ} {k : κ} (h : keys.Nodup) (hnew : k ∉ keys) :
    (keys ++ [k]).Nodup := by
  rw [List.nodup_append]
  refine ⟨h, List.nodup_singleton _, ?_⟩
  intro a ha b hb heq
  rw [List.mem_singleton.mp hb] at heq
  exact hnew (heq ▸ ha)

/-- Distinct keys stay distinct when elements are dropped and moved. -/
lemma nodup_map_of_subperm {key : α → κ} {xs ys : List α} (h : xs.Subperm ys)
    (hys : (ys.map key).Nodup) : (xs.map key).Nodup := by
  rcases h with ⟨zs, hperm, hsub⟩
  exact (hperm.map key).nodup_iff.mp ((hsub.map key).nodup hys)

/-! ## One element for every key -/

section Keys

variable [DecidableEq κ] (key : α → κ)

/-- Add an element, or let it take the place of the one with its key. -/
def keepPreferred (prefers : α → α → Bool) : List α → α → List α
  | [], x => [x]
  | k :: kept, x =>
      if key k = key x then (if prefers x k then x else k) :: kept
      else k :: keepPreferred prefers kept x

variable {key} {prefers : α → α → Bool} {x a : α}

lemma map_keepPreferred (kept : List α) :
    (keepPreferred key prefers kept x).map key =
      if key x ∈ kept.map key then kept.map key else kept.map key ++ [key x] := by
  induction kept with
  | nil => rfl
  | cons k kept ih =>
      rw [keepPreferred]
      by_cases hk : key k = key x
      · have hsame : key (if prefers x k then x else k) = key k := by
          split_ifs
          · exact hk.symm
          · rfl
        have hmem : key x ∈ (k :: kept).map key := hk ▸ List.mem_cons_self
        rw [if_pos hk, if_pos hmem, List.map_cons, hsame]
        rfl
      · rw [if_neg hk, List.map_cons, ih]
        by_cases hmem : key x ∈ kept.map key
        · have hin : key x ∈ (k :: kept).map key := List.mem_cons_of_mem _ hmem
          rw [if_pos hmem, if_pos hin]
          rfl
        · have hnew : key x ∉ (k :: kept).map key := fun hin =>
            (List.mem_cons.mp hin).elim (fun heq => hk heq.symm) hmem
          rw [if_neg hmem, if_neg hnew]
          rfl

lemma nodup_keepPreferred {kept : List α} (h : (kept.map key).Nodup) :
    ((keepPreferred key prefers kept x).map key).Nodup := by
  rw [map_keepPreferred]
  split_ifs with hmem
  · exact h
  · exact nodup_concat_key h hmem

lemma mem_keepPreferred {kept : List α} (h : a ∈ keepPreferred key prefers kept x) :
    a ∈ kept ∨ a = x := by
  induction kept with
  | nil => exact Or.inr (List.mem_singleton.mp h)
  | cons k kept ih =>
      rw [keepPreferred] at h
      split_ifs at h with hk hprefers
      · rcases List.mem_cons.mp h with rfl | hmem
        · exact Or.inr rfl
        · exact Or.inl (List.mem_cons_of_mem _ hmem)
      · exact Or.inl h
      · rcases List.mem_cons.mp h with rfl | hmem
        · exact Or.inl List.mem_cons_self
        · exact (ih hmem).imp (List.mem_cons_of_mem _) id

lemma nodup_foldl_keepPreferred (xs : List α) {kept : List α} (h : (kept.map key).Nodup) :
    ((xs.foldl (keepPreferred key prefers) kept).map key).Nodup := by
  induction xs generalizing kept with
  | nil => exact h
  | cons x xs ih => exact ih (nodup_keepPreferred h)

lemma mem_foldl_keepPreferred {xs kept : List α} (h : a ∈ xs.foldl (keepPreferred key prefers) kept) :
    a ∈ kept ∨ a ∈ xs := by
  induction xs generalizing kept with
  | nil => exact Or.inl h
  | cons x xs ih =>
      rcases ih h with hkept | hxs
      · rcases mem_keepPreferred hkept with hmem | rfl
        · exact Or.inl hmem
        · exact Or.inr List.mem_cons_self
      · exact Or.inr (List.mem_cons_of_mem _ hxs)

/-- Every key that comes by is kept. -/
lemma key_mem_foldl_keepPreferred (xs : List α) {kept : List α} {k : κ}
    (h : k ∈ kept.map key ∨ k ∈ xs.map key) :
    k ∈ (xs.foldl (keepPreferred key prefers) kept).map key := by
  induction xs generalizing kept with
  | nil => exact h.resolve_right List.not_mem_nil
  | cons x xs ih =>
      refine ih ?_
      rw [map_keepPreferred]
      rw [List.map_cons, List.mem_cons] at h
      split_ifs with hmem
      · rcases h with hkept | rfl | hxs
        · exact .inl hkept
        · exact .inl hmem
        · exact .inr hxs
      · rcases h with hkept | rfl | hxs
        · exact .inl (List.mem_append_left _ hkept)
        · exact .inl List.mem_concat_self
        · exact .inr hxs

/-- Elements with other keys are left alone. -/
lemma keepPreferred_append {others kept : List α} (h : key x ∉ others.map key) :
    keepPreferred key prefers (others ++ kept) x = others ++ keepPreferred key prefers kept x := by
  induction others with
  | nil => rfl
  | cons k others ih =>
      rw [List.map_cons, List.mem_cons, not_or] at h
      rw [List.cons_append, keepPreferred, if_neg fun heq => h.1 heq.symm, ih h.2]
      rfl

lemma keepPreferred_of_new {kept : List α} (h : key x ∉ kept.map key) :
    keepPreferred key prefers kept x = kept ++ [x] := by
  have hnil : keepPreferred key prefers (kept ++ []) x = kept ++ keepPreferred key prefers [] x :=
    keepPreferred_append h
  rw [List.append_nil] at hnil
  exact hnil

/-- The element with the key gives way, or stays. -/
lemma keepPreferred_of_mem {kept : List α} (hnodup : (kept.map key).Nodup) {k : α} (hk : k ∈ kept)
    (hkey : key k = key x) :
    (keepPreferred key prefers kept x).Perm
      ((if prefers x k then x else k) :: kept.filter fun a => decide (key a ≠ key x)) := by
  rcases List.append_of_mem hk with ⟨before, after, rfl⟩
  have hothers : ∀ a ∈ before ++ after, key a ≠ key x := by
    intro a ha heq
    rw [List.map_append, List.map_cons, List.nodup_middle, ← List.map_append, List.nodup_cons] at hnodup
    exact hnodup.1 (hkey ▸ heq ▸ List.mem_map_of_mem ha)
  have hbefore : key x ∉ before.map key := by
    intro hin
    rcases List.mem_map.mp hin with ⟨a, ha, heq⟩
    exact hothers a (List.mem_append_left _ ha) heq
  have hfilter : (before ++ k :: after).filter (fun a => decide (key a ≠ key x)) = before ++ after := by
    rw [List.filter_append, List.filter_cons_of_neg (by simp [hkey]), ← List.filter_append,
      List.filter_eq_self]
    simpa using hothers
  rw [keepPreferred_append hbefore, keepPreferred, if_pos hkey, hfilter]
  exact List.perm_middle

/-- The order of what is kept does not matter. -/
lemma keepPreferred_perm {kept kept' : List α} (hperm : kept.Perm kept')
    (hnodup : (kept.map key).Nodup) :
    (keepPreferred key prefers kept x).Perm (keepPreferred key prefers kept' x) := by
  by_cases hmem : key x ∈ kept.map key
  · rcases List.mem_map.mp hmem with ⟨k, hk, hkey⟩
    have hnodup' := (hperm.map key).nodup_iff.mp hnodup
    calc (keepPreferred key prefers kept x).Perm
          ((if prefers x k then x else k) :: kept.filter fun a => decide (key a ≠ key x)) :=
          keepPreferred_of_mem hnodup hk hkey
      _ |>.Perm ((if prefers x k then x else k) :: kept'.filter fun a => decide (key a ≠ key x)) :=
          (hperm.filter _).cons _
      _ |>.Perm (keepPreferred key prefers kept' x) :=
          (keepPreferred_of_mem hnodup' (hperm.subset hk) hkey).symm
  · have hmem' : key x ∉ kept'.map key := fun hin => hmem ((hperm.map key).symm.subset hin)
    rw [keepPreferred_of_new hmem, keepPreferred_of_new hmem']
    exact hperm.append_right [x]

/-- Nothing with the same key is preferred to what is kept. -/
lemma not_prefers_foldl_keepPreferred (hself : ∀ a, prefers a a = false)
    (htrans : ∀ a b c, prefers a b = true → prefers b c = true → prefers a c = true) (xs : List α) :
    ∀ y ∈ xs, ∀ k ∈ xs.foldl (keepPreferred key prefers) [], key k = key y → prefers y k = false := by
  induction xs using List.reverseRecOn with
  | nil => simp
  | append_singleton xs x ih =>
      have hnodup : ((xs.foldl (keepPreferred key prefers) []).map key).Nodup :=
        nodup_foldl_keepPreferred xs List.nodup_nil
      rw [List.foldl_append, List.foldl_cons, List.foldl_nil]
      intro y hy k hk hkey
      by_cases hold : key x ∈ (xs.foldl (keepPreferred key prefers) []).map key
      · rcases List.mem_map.mp hold with ⟨k', hk', hkey'⟩
        rw [(keepPreferred_of_mem hnodup hk' hkey').mem_iff, List.mem_cons, List.mem_filter,
          decide_eq_true_eq] at hk
        rw [List.mem_append, List.mem_singleton] at hy
        rcases hk with rfl | ⟨hk, hne⟩
        · split_ifs at hkey ⊢ with hwins
          · -- what the newcomer beat has not been beaten before
            rcases hy with hy | rfl
            · by_contra hbeats
              have hlost := htrans y x k' (eq_true_of_ne_false hbeats) hwins
              rw [ih y hy k' hk' (hkey'.trans hkey)] at hlost
              exact Bool.false_ne_true hlost
            · exact hself y
          · rcases hy with hy | rfl
            · exact ih y hy k' hk' hkey
            · exact eq_false_of_ne_true hwins
        · rcases hy with hy | rfl
          · exact ih y hy k hk hkey
          · exact absurd hkey hne
      · rw [keepPreferred_of_new hold, List.mem_append, List.mem_singleton] at hk
        rw [List.mem_append, List.mem_singleton] at hy
        have hnew : ∀ y ∈ xs, key y ≠ key x := by
          intro y hy heq
          exact hold (heq ▸ key_mem_foldl_keepPreferred xs (.inr (List.mem_map_of_mem hy)))
        rcases hk with hk | rfl
        · rcases hy with hy | rfl
          · exact ih y hy k hk hkey
          · exact absurd (List.mem_map_of_mem hk) (hkey ▸ hold)
        · rcases hy with hy | rfl
          · exact absurd hkey.symm (hnew y hy)
          · exact hself y

/-! ## Filling up -/

variable (key) in
/-- Append the elements with a new key; stop once `cap` is reached after an addition. -/
def appendNew (cap : ℕ) : List α → List α → List α
  | acc, [] => acc
  | acc, x :: xs =>
      if key x ∈ acc.map key then appendNew cap acc xs
      else if cap ≤ acc.length + 1 then acc ++ [x]
      else appendNew cap (acc ++ [x]) xs

variable {cap : ℕ} {acc xs : List α}

lemma nodup_appendNew (xs : List α) (h : (acc.map key).Nodup) :
    ((appendNew key cap acc xs).map key).Nodup := by
  induction xs generalizing acc with
  | nil => exact h
  | cons x xs ih =>
      have hpush : key x ∉ acc.map key → ((acc ++ [x]).map key).Nodup := by
        intro hnew
        rw [List.map_append]
        exact nodup_concat_key h hnew
      rw [appendNew]
      split_ifs with hold hfull
      · exact ih h
      · exact hpush hold
      · exact ih (hpush hold)

lemma length_appendNew_le (xs : List α) (h : acc.length < cap) :
    (appendNew key cap acc xs).length ≤ cap := by
  induction xs generalizing acc with
  | nil => exact h.le
  | cons x xs ih =>
      rw [appendNew]
      split_ifs with hold hfull
      · exact ih h
      · rw [List.length_append, List.length_singleton]
        exact h
      · refine ih ?_
        rw [List.length_append, List.length_singleton]
        exact not_le.mp hfull

lemma mem_appendNew (h : a ∈ appendNew key cap acc xs) : a ∈ acc ∨ a ∈ xs := by
  induction xs generalizing acc with
  | nil => exact Or.inl h
  | cons x xs ih =>
      have hpush : a ∈ acc ++ [x] → a ∈ acc ∨ a ∈ x :: xs := by
        intro hmem
        rcases List.mem_append.mp hmem with hacc | hx
        · exact Or.inl hacc
        · exact Or.inr (List.mem_singleton.mp hx ▸ List.mem_cons_self)
      rw [appendNew] at h
      split_ifs at h with hold hfull
      · exact (ih h).imp id (List.mem_cons_of_mem _)
      · exact hpush h
      · rcases ih h with hmem | hmem
        · exact hpush hmem
        · exact Or.inr (List.mem_cons_of_mem _ hmem)

lemma subset_appendNew (xs : List α) (h : a ∈ acc) : a ∈ appendNew key cap acc xs := by
  induction xs generalizing acc with
  | nil => exact h
  | cons x xs ih =>
      rw [appendNew]
      split_ifs
      · exact ih h
      · exact List.mem_append_left _ h
      · exact ih (List.mem_append_left _ h)

end Keys

/-! ## In turn -/

/-- The last list takes the place of one that ran out. -/
def replaceByLast (rest : List (List α)) : List (List α) :=
  match rest.getLast? with
  | none => []
  | some last => last :: rest.dropLast

/-- One round over the lists in `todo`: those that still have elements move to `done`. -/
def sweep (cap : ℕ) : ℕ → List (List α) → List (List α) → List α → List (List α) × List α
  | 0, done, todo, selected => (done ++ todo, selected)
  | _ + 1, done, [], selected => (done, selected)
  | fuel + 1, done, [] :: rest, selected => sweep cap fuel done (replaceByLast rest) selected
  | fuel + 1, done, (x :: list) :: rest, selected =>
      if cap ≤ selected.length then (done ++ (x :: list) :: rest, selected)
      else if list.isEmpty then sweep cap fuel done (replaceByLast rest) (selected ++ [x])
      else sweep cap fuel (done ++ [list]) rest (selected ++ [x])

/-- Rounds until `cap` elements are selected or the lists ran out. -/
def roundRobin (cap : ℕ) : ℕ → List (List α) → List α → List α
  | 0, _, selected => selected
  | fuel + 1, active, selected =>
      if selected.length < cap ∧ active ≠ [] then
        let (active, selected) := sweep cap active.length [] active selected
        roundRobin cap fuel active selected
      else selected

lemma replaceByLast_perm (rest : List (List α)) : (replaceByLast rest).Perm rest := by
  rw [replaceByLast]
  cases hlast : rest.getLast? with
  | none => rw [List.getLast?_eq_none_iff.mp hlast]
  | some last =>
      have hconcat := List.dropLast_append_getLast? last (Option.mem_def.mpr hlast)
      calc (last :: rest.dropLast).Perm (rest.dropLast ++ [last]) :=
            (List.perm_append_singleton last rest.dropLast).symm
        _ = rest := hconcat

lemma length_replaceByLast (rest : List (List α)) : (replaceByLast rest).length = rest.length :=
  (replaceByLast_perm rest).length_eq

/-- What is selected and what is left is what there was. -/
lemma sweep_perm (cap fuel : ℕ) :
    ∀ (done todo : List (List α)) (selected : List α),
      ((sweep cap fuel done todo selected).2 ++ (sweep cap fuel done todo selected).1.flatten).Perm
        (selected ++ (done ++ todo).flatten) := by
  induction fuel with
  | zero => intro done todo selected; exact .refl _
  | succ fuel ih =>
      intro done todo selected
      cases todo with
      | nil =>
          rw [sweep, List.append_nil]
      | cons list rest =>
          have hrest : ∀ selected : List α,
              (selected ++ (done ++ replaceByLast rest).flatten).Perm
                (selected ++ (done ++ rest).flatten) := fun selected =>
            (((replaceByLast_perm rest).append_left done).flatten).append_left selected
          cases list with
          | nil =>
              rw [sweep]
              refine (ih _ _ _).trans ((hrest selected).trans (.of_eq ?_))
              simp
          | cons x list =>
              -- Taking `x` out of its list moves it behind what was selected.
              have htake : (selected ++ [x] ++ (done ++ list :: rest).flatten).Perm
                  (selected ++ (done ++ (x :: list) :: rest).flatten) := by
                rw [List.append_assoc]
                refine List.Perm.append_left selected ?_
                simp only [List.flatten_append, List.flatten_cons, List.cons_append, List.nil_append]
                exact List.perm_middle.symm
              rw [sweep]
              split_ifs with hfull hempty
              · exact .refl _
              · rw [List.isEmpty_iff] at hempty
                subst hempty
                refine (ih _ _ _).trans ((hrest _).trans (.trans (.of_eq ?_) htake))
                simp
              · refine (ih _ _ _).trans (.trans (.of_eq ?_) htake)
                rw [List.append_assoc done]
                rfl

lemma sweep_length_le {cap : ℕ} (fuel : ℕ) :
    ∀ (done todo : List (List α)) (selected : List α), selected.length ≤ cap →
      (sweep cap fuel done todo selected).2.length ≤ cap := by
  induction fuel with
  | zero => intro done todo selected h; exact h
  | succ fuel ih =>
      intro done todo selected h
      cases todo with
      | nil => exact h
      | cons list rest =>
          cases list with
          | nil => exact ih _ _ _ h
          | cons x list =>
              rw [sweep]
              split_ifs with hfull hempty
              · exact h
              · refine ih _ _ _ ?_
                rw [List.length_append, List.length_singleton]
                exact not_le.mp hfull
              · refine ih _ _ _ ?_
                rw [List.length_append, List.length_singleton]
                exact not_le.mp hfull

/-- Nothing selected twice, and only what was there. -/
lemma roundRobin_subperm (cap fuel : ℕ) :
    ∀ (active : List (List α)) (selected : List α),
      (roundRobin cap fuel active selected).Subperm (selected ++ active.flatten) := by
  induction fuel with
  | zero => intro active selected; exact (List.sublist_append_left _ _).subperm
  | succ fuel ih =>
      intro active selected
      rw [roundRobin]
      split_ifs
      · exact (ih _ _).trans (sweep_perm cap active.length [] active selected).subperm
      · exact (List.sublist_append_left _ _).subperm

/-! ### Enough rounds -/

lemma sweep_keeps_nonempty (cap fuel : ℕ) :
    ∀ (done todo : List (List α)) (selected : List α), [] ∉ done → [] ∉ todo →
      [] ∉ (sweep cap fuel done todo selected).1 := by
  induction fuel with
  | zero =>
      intro done todo selected hdone htodo hmem
      exact (List.mem_append.mp hmem).elim hdone htodo
  | succ fuel ih =>
      intro done todo selected hdone htodo
      cases todo with
      | nil => exact hdone
      | cons list rest =>
          have hrest : [] ∉ rest := fun hmem => htodo (List.mem_cons_of_mem _ hmem)
          have hlast : [] ∉ replaceByLast rest := fun hmem =>
            hrest ((replaceByLast_perm rest).mem_iff.mp hmem)
          cases list with
          | nil => exact absurd List.mem_cons_self htodo
          | cons x list =>
              rw [sweep]
              split_ifs with hfull hempty
              · intro hmem
                exact (List.mem_append.mp hmem).elim hdone htodo
              · exact ih _ _ _ hdone hlast
              · refine ih _ _ _ ?_ hrest
                intro hmem
                rcases List.mem_append.mp hmem with hmem | hmem
                · exact hdone hmem
                · rw [← List.mem_singleton.mp hmem] at hempty
                  exact hempty rfl

lemma length_le_sweep (cap fuel : ℕ) :
    ∀ (done todo : List (List α)) (selected : List α),
      selected.length ≤ (sweep cap fuel done todo selected).2.length := by
  have hpush : ∀ (selected : List α) (x : α), selected.length ≤ (selected ++ [x]).length := by
    intro selected x
    rw [List.length_append]
    exact Nat.le_add_right _ _
  induction fuel with
  | zero => intro done todo selected; exact le_rfl
  | succ fuel ih =>
      intro done todo selected
      cases todo with
      | nil => exact le_rfl
      | cons list rest =>
          cases list with
          | nil => exact ih _ _ _
          | cons x list =>
              rw [sweep]
              split_ifs
              · exact le_rfl
              · exact (hpush selected x).trans (ih _ _ _)
              · exact (hpush selected x).trans (ih _ _ _)

/-- A round over lists that all have elements selects one. -/
lemma lt_length_sweep {cap : ℕ} {active : List (List α)} {selected : List α} (hne : active ≠ [])
    (hall : [] ∉ active) (hroom : selected.length < cap) :
    selected.length < (sweep cap active.length [] active selected).2.length := by
  cases active with
  | nil => exact absurd rfl hne
  | cons list rest =>
      cases list with
      | nil => exact absurd List.mem_cons_self hall
      | cons x list =>
          have hpush : selected.length < (selected ++ [x]).length := by
            rw [List.length_append, List.length_singleton]
            exact Nat.lt_succ_self _
          rw [List.length_cons, sweep, if_neg (not_le.mpr hroom)]
          split_ifs
          · exact hpush.trans_le (length_le_sweep _ _ _ _ _)
          · exact hpush.trans_le (length_le_sweep _ _ _ _ _)

/-- With a round for every place, the selection is full or has everything. -/
lemma length_roundRobin {cap : ℕ} (fuel : ℕ) :
    ∀ (active : List (List α)) (selected : List α), [] ∉ active → selected.length ≤ cap →
      cap ≤ selected.length + fuel →
      (roundRobin cap fuel active selected).length =
        min cap (selected.length + active.flatten.length) := by
  induction fuel with
  | zero =>
      intro active selected _ hle hcap
      rw [roundRobin]
      omega
  | succ fuel ih =>
      intro active selected hall hle hcap
      rw [roundRobin]
      split_ifs with hgo
      · have hlt := lt_length_sweep hgo.2 hall hgo.1
        have hlen := (sweep_perm cap active.length [] active selected).length_eq
        rw [List.nil_append, List.length_append, List.length_append] at hlen
        refine (ih _ _ (sweep_keeps_nonempty _ _ _ _ _ List.not_mem_nil hall)
          (sweep_length_le _ _ _ _ hle) (by omega)).trans ?_
        rw [hlen]
      · rcases not_and_or.mp hgo with hfull | hnone
        · omega
        · rw [not_not.mp hnone]
          exact (min_eq_right hle).symm

end Selection

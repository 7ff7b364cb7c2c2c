import Mathlib.Data.Finset.Card
import Mathlib.Order.RelClasses
import Mathlib.Tactic.Common
import PolygonArb.Lib.TopRanked

/-!
# Taking turns

Names on a list, best first and perhaps several times, get seats in turn until `cap` are taken
(`takeTurns`).  A name gets a seat if and only if fewer than `cap` names have a turn before it
(`mem_takeTurns`).

The turns follow the ranking (`getElem?_of_sorted`); past the first `lead` of them the list may be
rotated (`getElem?_rotateTail`).
-/

namespace TurnTaking

variable {α : Type*} [DecidableEq α]

/-! ## Places in a sorted list -/

section Sorted

variable {r : α → α → Prop} [DecidableRel r] [IsStrictTotalOrder α r] {l : List α} {a : α} {q : ℕ}

/-- The places of a name are the ones after all that come before it. -/
lemma getElem?_of_sorted (hsorted : l.Pairwise fun a b => ¬ r b a) :
    l[q]? = some a ↔ TopRanked.rank r l a ≤ q ∧ q < TopRanked.rank r l a + l.count a := by
  induction l generalizing q with
  | nil => simp [TopRanked.rank]
  | cons x l ih =>
      rcases List.pairwise_cons.mp hsorted with ⟨hhead, htail⟩
      rcases trichotomous_of r x a with hbefore | rfl | hafter
      · -- `x` comes before `a`: one place further on
        have hne : x ≠ a := fun heq => irrefl_of r a (heq ▸ hbefore)
        have hrank : TopRanked.rank r (x :: l) a = TopRanked.rank r l a + 1 := by
          simp [TopRanked.rank, hbefore]
        rw [hrank, List.count_cons_of_ne hne]
        cases q with
        | zero => simpa using hne
        | succ q =>
            rw [List.getElem?_cons_succ, ih htail]
            omega
      · -- `x` is the first place of `a`
        have hnone : ∀ m : List α, (∀ y ∈ m, ¬ r y x) → TopRanked.rank r m x = 0 := by
          intro m hm
          rw [TopRanked.rank, List.countP_eq_zero]
          simpa using hm
        have hrank : TopRanked.rank r l x = 0 := hnone l hhead
        have hrank' : TopRanked.rank r (x :: l) x = 0 :=
          hnone _ (List.forall_mem_cons.mpr ⟨irrefl_of r x, hhead⟩)
        rw [hrank', List.count_cons_self]
        cases q with
        | zero => simp
        | succ q =>
            rw [List.getElem?_cons_succ, ih htail, hrank]
            omega
      · -- `a` would have to stand before `x`
        have hout : ∀ y ∈ x :: l, y ≠ a ∧ ¬ r y a := by
          intro y hy
          rcases List.mem_cons.mp hy with rfl | hy
          · exact ⟨fun heq => irrefl_of r y (heq ▸ hafter), asymm_of r hafter⟩
          · have hnot := hhead y hy
            refine ⟨fun heq => hnot (heq ▸ hafter), fun hya => hnot (trans_of r hya hafter)⟩
        have hcount : (x :: l).count a = 0 :=
          List.count_eq_zero.mpr fun hmem => (hout a hmem).1 rfl
        rw [hcount]
        constructor
        · intro hsome
          exact absurd rfl (hout a (List.mem_of_getElem? hsome)).1
        · omega

omit [DecidableEq α] in
/-- Names that pass a test which only gets harder are the first ones. -/
lemma length_takeWhile_take {p : α → Bool} (hsorted : l.Pairwise fun a b => p b = true → p a = true)
    (k : ℕ) : ((l.take k).takeWhile p).length = min k (l.countP p) := by
  induction l generalizing k with
  | nil => simp
  | cons x l ih =>
      rcases List.pairwise_cons.mp hsorted with ⟨hhead, htail⟩
      cases k with
      | zero => simp
      | succ k =>
          rw [List.take_succ_cons, List.takeWhile_cons, List.countP_cons]
          split_ifs with hx
          · rw [List.length_cons, ih htail]
            omega
          · have hnone : l.countP p = 0 := List.countP_eq_zero.mpr fun y hy hpy => hx (hhead y hy hpy)
            rw [hnone]
            rfl

end Sorted

/-! ## Rotation -/

/-- The list with its part from `lead` on moved up by `rot`, and what was passed over at the end. -/
def rotateTail (lead rot : ℕ) (l : List α) : List α :=
  l.take lead ++ ((l.drop lead).drop rot ++ (l.drop lead).take rot)

omit [DecidableEq α] in
lemma rotateTail_perm (lead rot : ℕ) (l : List α) : (rotateTail lead rot l).Perm l := by
  have htail : ((l.drop lead).drop rot ++ (l.drop lead).take rot).Perm (l.drop lead) := by
    refine List.perm_append_comm.trans ?_
    rw [List.take_append_drop]
  refine (htail.append_left _).trans ?_
  rw [List.take_append_drop]

/-- The turn of the place `q`, of `n`. -/
def turnOf (lead rot n q : ℕ) : ℕ :=
  if q < lead then q else if q < lead + rot then q + (n - lead - rot) else q - rot

lemma turnOf_zero (lead n q : ℕ) : turnOf lead 0 n q = q := by
  rw [turnOf]
  split_ifs <;> omega

lemma turnOf_lt {lead rot n q : ℕ} (hq : q < n) : turnOf lead rot n q < n := by
  rw [turnOf]
  split_ifs <;> omega

lemma le_turnOf {lead rot n q : ℕ} (hq : lead ≤ q) : lead ≤ turnOf lead rot n q := by
  rw [turnOf]
  split_ifs <;> omega

omit [DecidableEq α] in
lemma getElem?_rotateTail {lead rot t : ℕ} {l : List α} {a : α} (hlead : lead ≤ l.length) :
    (rotateTail lead rot l)[t]? = some a ↔ ∃ q, l[q]? = some a ∧ turnOf lead rot l.length q = t := by
  have hfirst : (l.take lead).length = lead := by rw [List.length_take, Nat.min_eq_left hlead]
  have hsecond : ((l.drop lead).drop rot).length = l.length - lead - rot := by
    rw [List.length_drop, List.length_drop]
  have hbound : ∀ {q}, l[q]? = some a → q < l.length := fun h => (List.getElem?_eq_some_iff.mp h).1
  rw [rotateTail]
  rcases Nat.lt_or_ge t lead with ht | ht
  · rw [List.getElem?_append_left (by omega), List.getElem?_take, if_pos ht]
    constructor
    · intro h
      exact ⟨t, h, if_pos ht⟩
    · rintro ⟨q, h, hturn⟩
      have hq := hbound h
      rw [turnOf] at hturn
      split_ifs at hturn with h1 h2
      · rwa [← hturn]
      · omega
      · omega
  · rw [List.getElem?_append_right (by omega), hfirst]
    rcases Nat.lt_or_ge (t - lead) (l.length - lead - rot) with hin | hin
    · rw [List.getElem?_append_left (by omega), List.getElem?_drop, List.getElem?_drop]
      have hplace : lead + (rot + (t - lead)) = t + rot := by omega
      rw [hplace]
      constructor
      · intro h
        refine ⟨t + rot, h, ?_⟩
        rw [turnOf, if_neg (by omega), if_neg (by omega)]
        omega
      · rintro ⟨q, h, hturn⟩
        have hq := hbound h
        have hturn' : q = t + rot := by
          rw [turnOf] at hturn
          split_ifs at hturn <;> omega
        rwa [← hturn']
    · rw [List.getElem?_append_right (by omega), hsecond, List.getElem?_take]
      constructor
      · intro h
        split_ifs at h with hlast
        rw [List.getElem?_drop] at h
        refine ⟨_, h, ?_⟩
        rw [turnOf, if_neg (by omega), if_pos (by omega)]
        omega
      · rintro ⟨q, h, hturn⟩
        have hq := hbound h
        have hturn' : q = lead + (t - lead - (l.length - lead - rot)) ∧
            t - lead - (l.length - lead - rot) < rot := by
          rw [turnOf] at hturn
          split_ifs at hturn <;> omega
        rw [if_pos hturn'.2, List.getElem?_drop, ← hturn'.1]
        exact h

/-! ## Seats -/

/-- The seated, and all names seen: a name is looked at once, and seated if it is known. -/
def takeTurns (cap : ℕ) (known : α → Bool) : List α → List α × List α → List α × List α
  | [], seats => seats
  | a :: rest, (out, seen) =>
      if cap ≤ out.length then (out, seen)
      else if a ∈ seen then takeTurns cap known rest (out, seen)
      else takeTurns cap known rest (if known a then out ++ [a] else out, a :: seen)

section Seats

variable {cap : ℕ} {known : α → Bool}

/-- The names that had to be looked at and seated before turn `t`. -/
def before (known : α → Bool) (rows seen : List α) (t : ℕ) : Finset α :=
  (rows.take t).toFinset.filter fun b => known b = true ∧ b ∉ seen

lemma before_zero {rows seen : List α} : before known rows seen 0 = ∅ := rfl

lemma before_cons_of_mem {x : α} {rest seen : List α} {t : ℕ} (hseen : x ∈ seen) :
    before known (x :: rest) seen (t + 1) = before known rest seen t := by
  rw [before, List.take_succ_cons, List.toFinset_cons, Finset.filter_insert]
  exact if_neg fun h => h.2 hseen

lemma card_before_cons {x : α} {rest seen : List α} {t : ℕ} (hnew : x ∉ seen) :
    (before known (x :: rest) seen (t + 1)).card =
      (if known x then 1 else 0) + (before known rest (x :: seen) t).card := by
  have herase : before known rest (x :: seen) t = (before known rest seen t).erase x := by
    ext b
    simp only [before, Finset.mem_filter, Finset.mem_erase, List.mem_cons, not_or]
    tauto
  rw [before, List.take_succ_cons, List.toFinset_cons, Finset.filter_insert, herase]
  split_ifs with hboth hknown hknown
  · rw [← before, ← Finset.card_erase_add_one (Finset.mem_insert_self x _),
      Finset.erase_insert_eq_erase, Nat.add_comm]
  · exact absurd hboth.1 hknown
  · exact absurd ⟨hknown, hnew⟩ hboth
  · rw [← before, Nat.zero_add, Finset.erase_eq_of_notMem]
    intro hmem
    exact hknown (Finset.mem_filter.mp hmem).2.1

/-- A new name gets a seat if and only if one is left at one of its turns. -/
lemma mem_takeTurns {rows out seen : List α} {a : α} :
    a ∈ (takeTurns cap known rows (out, seen)).1 ↔
      a ∈ out ∨ known a = true ∧ a ∉ seen ∧
        ∃ t, rows[t]? = some a ∧ out.length + (before known rows seen t).card < cap := by
  induction rows generalizing out seen with
  | nil => simp [takeTurns]
  | cons x rest ih =>
      rw [takeTurns]
      split_ifs with hfull hseen hknown
      · refine ⟨Or.inl, ?_⟩
        rintro (hout | ⟨-, -, t, -, hcard⟩)
        · exact hout
        · omega
      · rw [ih]
        refine or_congr_right (and_congr_right fun _ => and_congr_right fun hnew => ?_)
        constructor
        · rintro ⟨t, ht, hcard⟩
          exact ⟨t + 1, ht, by rwa [before_cons_of_mem hseen]⟩
        · rintro ⟨t, ht, hcard⟩
          cases t with
          | zero =>
              cases ht
              exact absurd hseen hnew
          | succ t => exact ⟨t, ht, by rwa [before_cons_of_mem hseen] at hcard⟩
      · rw [ih, List.mem_append, List.mem_singleton, or_assoc, List.length_append, List.length_singleton]
        refine or_congr_right ?_
        constructor
        · rintro (rfl | ⟨hok, hnew, t, ht, hcard⟩)
          · refine ⟨hknown, hseen, 0, rfl, ?_⟩
            rw [before_zero, Finset.card_empty]
            omega
          · refine ⟨hok, fun hmem => hnew (List.mem_cons_of_mem _ hmem), t + 1, ht, ?_⟩
            rw [card_before_cons hseen, if_pos hknown]
            omega
        · rintro ⟨hok, hnew, t, ht, hcard⟩
          rcases eq_or_ne a x with rfl | hne
          · exact Or.inl rfl
          · cases t with
            | zero =>
                cases ht
                exact absurd rfl hne
            | succ t =>
                rw [card_before_cons hseen, if_pos hknown] at hcard
                refine Or.inr ⟨hok, ?_, t, ht, by omega⟩
                exact fun hmem => hnew (List.mem_of_ne_of_mem hne hmem)
      · rw [ih]
        refine or_congr_right (and_congr_right fun hok => ?_)
        have hne : a ≠ x := fun heq => hknown (heq ▸ hok)
        rw [List.mem_cons, not_or, and_assoc, and_iff_right hne]
        refine and_congr_right fun hnew => ?_
        constructor
        · rintro ⟨t, ht, hcard⟩
          refine ⟨t + 1, ht, ?_⟩
          rwa [card_before_cons hseen, if_neg hknown, Nat.zero_add]
        · rintro ⟨t, ht, hcard⟩
          cases t with
          | zero =>
              cases ht
              exact absurd rfl hne
          | succ t =>
              rw [card_before_cons hseen, if_neg hknown, Nat.zero_add] at hcard
              exact ⟨t, ht, hcard⟩

/-- No name is seated twice, nor past the last seat. -/
lemma takeTurns_spec {rows out seen : List α} (hlen : out.length ≤ cap) (hnodup : out.Nodup)
    (hseen : ∀ a ∈ out, a ∈ seen) :
    (takeTurns cap known rows (out, seen)).1.length ≤ cap ∧
      (takeTurns cap known rows (out, seen)).1.Nodup ∧
      ∀ a ∈ (takeTurns cap known rows (out, seen)).1, a ∈ (takeTurns cap known rows (out, seen)).2 := by
  induction rows generalizing out seen with
  | nil => exact ⟨hlen, hnodup, hseen⟩
  | cons x rest ih =>
      rw [takeTurns]
      split_ifs with hfull hmem hknown
      · exact ⟨hlen, hnodup, hseen⟩
      · exact ih hlen hnodup hseen
      · refine ih ?_ ?_ ?_
        · rw [List.length_append, List.length_singleton]
          omega
        · rw [List.nodup_append']
          refine ⟨hnodup, List.nodup_singleton x, ?_⟩
          rw [List.disjoint_singleton]
          exact fun hx => hmem (hseen x hx)
        · intro a ha
          rcases List.mem_append.mp ha with hout | hx
          · exact List.mem_cons_of_mem _ (hseen a hout)
          · rw [List.mem_singleton.mp hx]
            exact List.mem_cons_self
      · exact ih hlen hnodup fun a ha => List.mem_cons_of_mem _ (hseen a ha)

/-- With all names known, the seen ones are the seated. -/
lemma seen_of_takeTurns {rows out seen : List α} (hall : ∀ a, known a = true)
    (hseen : ∀ a ∈ seen, a ∈ out) :
    ∀ a ∈ (takeTurns cap known rows (out, seen)).2, a ∈ (takeTurns cap known rows (out, seen)).1 := by
  induction rows generalizing out seen with
  | nil => exact hseen
  | cons x rest ih =>
      rw [takeTurns]
      split_ifs with hfull hmem hknown
      · exact hseen
      · exact ih hseen
      · refine ih fun a ha => ?_
        rcases List.mem_cons.mp ha with rfl | hrest
        · exact List.mem_append_right _ (List.mem_singleton_self _)
        · exact List.mem_append_left _ (hseen a hrest)
      · exact absurd (hall x) hknown

/-- While a seat is left, every known name gets one. -/
lemma mem_of_length_takeTurns_lt {rows out seen : List α} {a : α}
    (hlt : (takeTurns cap known rows (out, seen)).1.length < cap) (ha : a ∈ rows) (hknown : known a = true)
    (hnew : a ∉ seen) : a ∈ (takeTurns cap known rows (out, seen)).1 := by
  induction rows generalizing out seen with
  | nil => cases ha
  | cons x rest ih =>
      rw [takeTurns] at hlt ⊢
      split_ifs at hlt ⊢ with hfull hseen hok
      · exact absurd hfull (Nat.not_le.mpr hlt)
      · exact ih hlt (List.mem_of_ne_of_mem (fun heq => hnew (heq ▸ hseen)) ha) hnew
      · rcases List.mem_cons.mp ha with rfl | hrest
        · exact mem_takeTurns.mpr (Or.inl (List.mem_append_right _ (List.mem_singleton_self _)))
        · rcases eq_or_ne a x with rfl | hne
          · exact mem_takeTurns.mpr (Or.inl (List.mem_append_right _ (List.mem_singleton_self _)))
          · exact ih hlt hrest fun hmem => hnew (List.mem_of_ne_of_mem hne hmem)
      · have hne : a ≠ x := fun heq => hok (heq ▸ hknown)
        exact ih hlt (List.mem_of_ne_of_mem hne ha) fun hmem => hnew (List.mem_of_ne_of_mem hne hmem)

end Seats

/-! ## Two rounds

All names of a ranking are seated first, then the known ones of a second list. -/

section Rounds

variable {cap : ℕ} {known : α → Bool} {rows late : List α}

def firstRound (cap : ℕ) (rows : List α) : List α × List α := takeTurns cap (fun _ => true) rows ([], [])

/-- The seated after both rounds. -/
def seated (cap : ℕ) (known : α → Bool) (rows late : List α) : List α :=
  (takeTurns cap known late (firstRound cap rows)).1

lemma mem_firstRound {a : α} : a ∈ (firstRound cap rows).1 ↔
    ∃ t, rows[t]? = some a ∧ (rows.take t).toFinset.card < cap := by
  have hall : ∀ t, before (fun _ => true) rows [] t = (rows.take t).toFinset := by
    intro t
    rw [before, Finset.filter_true_of_mem]
    exact fun b _ => ⟨rfl, List.not_mem_nil⟩
  simp [firstRound, mem_takeTurns, hall]

lemma firstRound_spec : (firstRound cap rows).1.length ≤ cap ∧ (firstRound cap rows).1.Nodup ∧
    ∀ a, a ∈ (firstRound cap rows).2 ↔ a ∈ (firstRound cap rows).1 := by
  have hnone : ∀ a ∈ ([] : List α), a ∈ ([] : List α) := fun _ ha => ha
  have hspec : (firstRound cap rows).1.length ≤ cap ∧ (firstRound cap rows).1.Nodup ∧
      ∀ a ∈ (firstRound cap rows).1, a ∈ (firstRound cap rows).2 :=
    takeTurns_spec (Nat.zero_le cap) List.nodup_nil hnone
  refine ⟨hspec.1, hspec.2.1, fun a => ⟨?_, hspec.2.2 a⟩⟩
  exact seen_of_takeTurns (fun _ => rfl) hnone a

theorem seated_spec : (seated cap known rows late).length ≤ cap ∧ (seated cap known rows late).Nodup := by
  rcases @firstRound_spec _ _ cap rows with ⟨hlen, hnodup, hseen⟩
  rcases @takeTurns_spec _ _ cap known late _ _ hlen hnodup fun a ha => (hseen a).mpr ha
    with ⟨hlen', hnodup', -⟩
  exact ⟨hlen', hnodup'⟩

lemma mem_seated_of_firstRound {a : α} (h : a ∈ (firstRound cap rows).1) :
    a ∈ seated cap known rows late := mem_takeTurns.mpr (Or.inl h)

lemma mem_seated {a : α} (h : a ∈ seated cap known rows late) :
    a ∈ rows.toFinset ∪ late.toFinset.filter fun b => known b = true := by
  rw [Finset.mem_union, Finset.mem_filter, List.mem_toFinset, List.mem_toFinset]
  rcases mem_takeTurns.mp h with hfirst | ⟨hknown, -, t, ht, -⟩
  · rcases mem_firstRound.mp hfirst with ⟨t, ht, -⟩
    exact Or.inl (List.mem_of_getElem? ht)
  · exact Or.inr ⟨List.mem_of_getElem? ht, hknown⟩

/-- The known names of the second list are all seated if and only if there are seats for them and the
ranking together, or each had a turn with a seat left. -/
theorem late_seated_iff :
    (∀ a ∈ late, known a = true → a ∈ seated cap known rows late) ↔
      (rows.toFinset ∪ late.toFinset.filter fun b => known b = true).card ≤ cap ∨
        ∀ a ∈ late, known a = true → ∃ t, rows[t]? = some a ∧ (rows.take t).toFinset.card < cap := by
  constructor
  · intro hall
    rcases Nat.lt_or_ge (firstRound cap rows).1.length cap with hroom | hfull
    · left
      have hsub : (rows.toFinset ∪ late.toFinset.filter fun b => known b = true) ⊆
          (seated cap known rows late).toFinset := by
        intro a ha
        rw [List.mem_toFinset]
        rcases Finset.mem_union.mp ha with hrow | hlate
        · exact mem_seated_of_firstRound
            (mem_of_length_takeTurns_lt hroom (List.mem_toFinset.mp hrow) rfl List.not_mem_nil)
        · rw [Finset.mem_filter, List.mem_toFinset] at hlate
          exact hall a hlate.1 hlate.2
      calc _ ≤ (seated cap known rows late).toFinset.card := Finset.card_le_card hsub
        _ ≤ (seated cap known rows late).length := List.toFinset_card_le _
        _ ≤ cap := seated_spec.1
    · right
      intro a ha hknown
      rcases mem_takeTurns.mp (hall a ha hknown) with hfirst | ⟨-, -, t, -, hcard⟩
      · exact mem_firstRound.mp hfirst
      · have hroom : (firstRound cap rows).1.length < cap := (Nat.le_add_right _ _).trans_lt hcard
        omega
  · rintro (hfits | hturns) a ha hknown
    · by_contra hout
      have hfull : cap ≤ (seated cap known rows late).length := by
        by_contra! hroom
        refine hout (mem_of_length_takeTurns_lt hroom ha hknown fun hseen => hout ?_)
        exact mem_seated_of_firstRound ((firstRound_spec.2.2 a).mp hseen)
      have hall : a ∈ rows.toFinset ∪ late.toFinset.filter fun b => known b = true := by
        rw [Finset.mem_union, Finset.mem_filter, List.mem_toFinset, List.mem_toFinset]
        exact Or.inr ⟨ha, hknown⟩
      have hsub : insert a (seated cap known rows late).toFinset ⊆
          rows.toFinset ∪ late.toFinset.filter fun b => known b = true :=
        Finset.insert_subset hall fun b hb => mem_seated (List.mem_toFinset.mp hb)
      have hcard := Finset.card_le_card hsub
      rw [Finset.card_insert_of_notMem (by rwa [List.mem_toFinset]),
        List.toFinset_card_of_nodup seated_spec.2] at hcard
      omega
    · exact mem_seated_of_firstRound (mem_firstRound.mpr (hturns a ha hknown))

end Rounds

end TurnTaking

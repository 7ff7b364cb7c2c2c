import PolygonArb.Pipeline.SizeSearch

/-!
# The best size a search has seen

Only the last two inner points, the ends of the window and the seeds compete in the end of a size search.  That
is enough: a turn drops an inner point only for one that scores at least as much, so no size the
objective was asked for scores more than the better inner point (`Seen`).  Turning to a seed drops both points,
but then both, and with them all sizes asked for, score zero.

With a pure objective and seeds that agree with it the size returned is therefore the best the
search has come across (`score_le_result`).
-/

namespace PolygonArb

open Word Loop

namespace SizeSearch

variable {q : SizeSearch} {f : U256 → U256}

variable (q f) in
/-- A pure objective that the seeds of the window agree with. -/
structure Pure : Prop where
  objective : q.objective = fun _ => f
  seeds : ∀ seed ∈ q.warm, q.low ≤ seed.1 → seed.1 ≤ q.high → seed.2 = f seed.1

/-! ## The ring of scores -/

variable (q) in
/-- A size with a known score: the objective was asked for it, or it is a seed of the window. -/
def Known (asked : List U256) (amount : U256) : Prop :=
  amount ∈ asked ∨ ∃ seed ∈ q.warm, q.low ≤ seed.1 ∧ seed.1 ≤ q.high ∧ seed.1 = amount

variable (q f) in
/-- The ring holds scores of known sizes. -/
def Sound (cache : BrentCache) (asked : List U256) : Prop :=
  ∀ slot ∈ cache.slots, slot.2 = f slot.1 ∧ q.Known asked slot.1

lemma mem_insert {cache : BrentCache} {amount score : U256} {slot : U256 × U256}
    (h : slot ∈ (cache.insert amount score).slots) : slot ∈ cache.slots ∨ slot = (amount, score) := by
  simp only [BrentCache.insert] at h
  split_ifs at h
  · simpa using h
  · exact List.mem_or_eq_of_mem_set h

lemma get_eq_some {cache : BrentCache} {amount score : U256} (h : cache.get amount = some score) :
    (amount, score) ∈ cache.slots := by
  rw [BrentCache.get, Option.map_eq_some_iff] at h
  rcases h with ⟨slot, hfind, rfl⟩
  have hkey := List.find?_some hfind
  rw [decide_eq_true_eq] at hkey
  rw [← hkey]
  exact List.mem_of_find?_eq_some hfind

lemma Known.mono {asked asked' : List U256} (hsub : ∀ x ∈ asked, x ∈ asked') {amount : U256}
    (h : q.Known asked amount) : q.Known asked' amount :=
  h.imp_left (hsub amount)

/-- A size gets the score of the objective, and the ring stays sound. -/
lemma Scores.sound {cache cache' : BrentCache} {asked asked' : List U256} {amount score : U256}
    (h : q.Scores cache asked amount score cache' asked') (hpure : q.Pure f)
    (hsound : q.Sound f cache asked) :
    score = f amount ∧ q.Sound f cache' asked' ∧ q.Known asked' amount ∧
      ∀ x ∈ asked', x ∈ asked ∨ x = amount := by
  cases h with
  | remembered h =>
      have hslot := hsound _ (get_eq_some h)
      exact ⟨hslot.1, hsound, hslot.2, fun x hx => .inl hx⟩
  | fresh h =>
      have hscore : q.objective asked amount = f amount := by rw [hpure.objective]
      have hamount : q.Known (asked ++ [amount]) amount := .inl (by simp)
      refine ⟨hscore, ?_, hamount, by simp⟩
      intro slot hslot
      rcases mem_insert hslot with hslot | rfl
      · have hold := hsound slot hslot
        exact ⟨hold.1, hold.2.mono (by simp +contextual)⟩
      · exact ⟨hscore, hamount⟩

lemma Scores.asked_subset {cache cache' : BrentCache} {asked asked' : List U256} {amount score : U256}
    (h : q.Scores cache asked amount score cache' asked') : ∀ x ∈ asked, x ∈ asked' := by
  intro x hx
  cases h with
  | remembered h => exact hx
  | fresh h => simp [hx]

lemma sound_foldl_insert (hpure : q.Pure f) (seeds : List (U256 × U256)) (cache : BrentCache)
    (hseeds : ∀ seed ∈ seeds, seed ∈ q.warm ∧ q.low ≤ seed.1 ∧ seed.1 ≤ q.high)
    (hcache : q.Sound f cache []) :
    q.Sound f (seeds.foldl (fun cache seed => cache.insert seed.1 seed.2) cache) [] := by
  induction seeds generalizing cache with
  | nil => exact hcache
  | cons seed seeds ih =>
      rw [List.forall_mem_cons] at hseeds
      refine ih _ hseeds.2 ?_
      intro slot hslot
      rcases mem_insert hslot with hslot | rfl
      · exact hcache slot hslot
      · rcases hseeds.1 with ⟨hmem, hlow, hhigh⟩
        exact ⟨hpure.seeds seed hmem hlow hhigh, .inr ⟨seed, hmem, hlow, hhigh, rfl⟩⟩

lemma sound_warmCache (hpure : q.Pure f) : q.Sound f (warmCache q.low q.high q.warm) [] := by
  refine sound_foldl_insert hpure _ _ ?_ (by simp [Sound])
  intro seed hseed
  rw [List.mem_filter, decide_eq_true_eq] at hseed
  exact hseed

/-! ## The better inner point -/

variable (q f) in
/-- No size asked for scores more than the better inner point; an inner point without its own score is
left over from giving up, when all scores were zero. -/
structure Seen (s : BrentState) (asked : List U256) : Prop where
  sound : q.Sound f s.cache asked
  left : s.leftValue ≠ 0 → s.leftValue = f s.left
  right : s.rightValue ≠ 0 → s.rightValue = f s.right
  asked : ∀ x ∈ asked, f x ≤ s.leftValue ∨ f x ≤ s.rightValue

/-- Two inner points scored one after the other. -/
lemma seen_of_scores {cache cache' cache'' : BrentCache} {asked asked' asked'' : List U256}
    {left right leftScore rightScore : U256} (a b : U256) (streak : ℕ) (hpure : q.Pure f)
    (hsound : q.Sound f cache asked) (hasked : ∀ x ∈ asked, f x ≤ 0)
    (hleft : q.Scores cache asked left leftScore cache' asked')
    (hright : q.Scores cache' asked' right rightScore cache'' asked'') :
    q.Seen f ⟨a, b, left, right, leftScore, rightScore, streak, cache''⟩ asked'' := by
  rcases hleft.sound hpure hsound with ⟨rfl, hsound', -, hnew⟩
  rcases hright.sound hpure hsound' with ⟨rfl, hsound'', -, hnew'⟩
  refine ⟨hsound'', fun _ => rfl, fun _ => rfl, ?_⟩
  intro x hx
  rcases hnew' x hx with hx | rfl
  · rcases hnew x hx with hx | rfl
    · have hzero := hasked x hx
      rw [le_iff] at hzero
      exact .inl (le_iff.mpr (hzero.trans (Nat.zero_le _)))
    · exact .inl (Std.le_refl _)
  · exact .inr (Std.le_refl _)

lemma seen_start (hpure : q.Pure f) : q.Seen f q.start.1 q.start.2 :=
  seen_of_scores _ _ _ hpure (sound_warmCache hpure) (by simp) (scores_cachedEvaluate _ _ _)
    (scores_cachedEvaluate _ _ _)

lemma zero_of_not_narrows {s : BrentState} (h : ¬ s.Narrows) : s.leftValue = 0 ∧ s.rightValue = 0 := by
  by_contra hne
  exact h fun hzero => absurd hzero hne

lemma Turn.seen {s : BrentState} {asked asked' : List U256} {step : LoopStep BrentState}
    (h : q.Turn s asked step asked') (hpure : q.Pure f) (hs : q.Seen f s asked) :
    q.Seen f step.state asked' := by
  cases h with
  | rise streak hlt hnarrow hscore =>
      rcases hscore.sound hpure hs.sound with ⟨rfl, hsound, -, hnew⟩
      refine ⟨hsound, hs.right, fun _ => rfl, ?_⟩
      intro x hx
      rcases hnew x hx with hx | rfl
      · -- the point dropped scores less than the one kept
        exact .inl ((hs.asked x hx).elim (Std.le_trans · (Std.le_of_lt hlt)) id)
      · exact .inr (Std.le_refl _)
  | fall streak hnlt hnarrow hscore =>
      rcases hscore.sound hpure hs.sound with ⟨rfl, hsound, -, hnew⟩
      refine ⟨hsound, fun _ => rfl, hs.left, ?_⟩
      intro x hx
      rcases hnew x hx with hx | rfl
      · exact .inr ((hs.asked x hx).elim id (Std.le_trans · (Std.not_lt.mp hnlt)))
      · exact .inl (Std.le_refl _)
  | recentre hstop hhint hpoints hleft hright =>
      have hzero := zero_of_not_narrows hstop
      refine seen_of_scores _ _ _ hpure hs.sound ?_ hleft hright
      intro x hx
      have hle := hs.asked x hx
      rw [hzero.1, hzero.2] at hle
      exact hle.elim id id
  | giveUp points hstop hpoints streak =>
      have hzero := zero_of_not_narrows hstop
      exact ⟨hs.sound, fun hne => absurd hzero.1 hne, fun hne => absurd hzero.2 hne, hs.asked⟩

lemma Head.seen {n : ℕ} {s : BrentState} {asked : List U256} (h : q.Head n s asked)
    (hpure : q.Pure f) : q.Seen f s asked := by
  induction h with
  | start => exact seen_start hpure
  | turn h hwide hturn ih => exact (turn_of_eq hturn).seen hpure ih

lemma Ended.seen {s : BrentState} {asked : List U256} (h : q.Ended s asked) (hpure : q.Pure f) :
    q.Seen f s asked := by
  cases h with
  | exhausted h => exact h.seen hpure
  | converged h hconv => exact h.seen hpure
  | gaveUp h hwide hturn => exact (turn_of_eq hturn).seen hpure (h.seen hpure)

/-! ## The size returned -/

/-- No candidate claims more than the objective gives its size. -/
lemma Seen.candidates_le {s : BrentState} {asked : List U256} (hs : q.Seen f s asked)
    (hpure : q.Pure f) :
    ∀ candidate ∈ (q.low, f q.low) :: q.candidates s (f q.high), candidate.2 ≤ f candidate.1 := by
  have hvalue : ∀ {value x : U256}, (value ≠ 0 → value = f x) → value ≤ f x := by
    intro value x h
    by_cases hzero : value = 0
    · rw [hzero, le_iff]
      exact Nat.zero_le _
    · rw [h hzero]
      exact Std.le_refl _
  intro candidate hmem
  simp only [candidates, List.mem_cons, List.mem_append, List.mem_filter, decide_eq_true_eq,
    List.not_mem_nil, or_false] at hmem
  rcases hmem with rfl | (rfl | rfl | rfl) | ⟨hmem, hlow, hhigh, -⟩
  · exact Std.le_refl _
  · exact hvalue hs.left
  · exact hvalue hs.right
  · exact Std.le_refl _
  · rw [hpure.seeds candidate hmem hlow hhigh]
    exact Std.le_refl _

variable (q f) in
/-- The size returned scores at least as much as the ends of the window and every known size. -/
structure BestKnown : Prop where
  low : f q.low ≤ f q.result
  high : f q.high ≤ f q.result
  asked : ∀ amount ∈ q.asked, f amount ≤ f q.result
  seeds : ∀ seed ∈ q.warm, q.low ≤ seed.1 → seed.1 ≤ q.high → f seed.1 ≤ f q.result

lemma bestKnown (hpure : q.Pure f) (hlt : q.low < q.high) : q.BestKnown f := by
  rcases exists_ended hlt with ⟨s, asked, hended, hrun⟩
  have hs := hended.seen hpure
  rcases settle_run (q := q) s asked with
    ⟨lowValue, cache, asked', highValue, cache', asked'', hlow, hhigh, hsettle⟩
  rcases hlow.sound hpure hs.sound with ⟨rfl, hsound, -, hnew⟩
  rcases hhigh.sound hpure hsound with ⟨rfl, -, -, hnew'⟩
  rw [hsettle] at hrun
  have hresult : q.result = ((q.candidates s (f q.high)).foldl betterOf (q.low, f q.low)).1 := by
    rw [SizeSearch.result, hrun]
  have hbest : ∀ candidate ∈ (q.low, f q.low) :: q.candidates s (f q.high),
      candidate.2 ≤ f q.result := by
    intro candidate hmem
    rw [hresult]
    exact Std.le_trans (le_betterOf_foldl _ _ candidate hmem)
      (hs.candidates_le hpure _ (betterOf_foldl_mem _ _))
  have hleft : s.leftValue ≤ f q.result := hbest (s.left, s.leftValue) (by simp [candidates])
  have hright : s.rightValue ≤ f q.result := hbest (s.right, s.rightValue) (by simp [candidates])
  have hlowBest : f q.low ≤ f q.result := hbest (q.low, f q.low) (by simp)
  have hhighBest : f q.high ≤ f q.result := hbest (q.high, f q.high) (by simp [candidates])
  refine ⟨hlowBest, hhighBest, ?_, ?_⟩
  · intro amount hamount
    rw [SizeSearch.asked, hrun] at hamount
    rcases hnew' amount hamount with hamount | rfl
    · rcases hnew amount hamount with hamount | rfl
      · exact (hs.asked amount hamount).elim (Std.le_trans · hleft) (Std.le_trans · hright)
      · exact hlowBest
    · exact hhighBest
  · intro seed hmem hlow hhigh
    have hscore := hpure.seeds seed hmem hlow hhigh
    by_cases hzero : seed.2 = 0
    · rw [← hscore, hzero, le_iff]
      exact Nat.zero_le _
    · rw [← hscore]
      exact hbest seed (by simp [candidates, hmem, hlow, hhigh, show seed.2 ≠ 0#256 from hzero])

/-- With a pure objective no size asked for during the run, and no seed of the window, scores more than
the size returned. -/
theorem score_le_result (q : SizeSearch) (f : U256 → U256) (hlt : q.low < q.high) (hpure : q.Pure f) :
    (∀ amount ∈ q.asked, f amount ≤ f q.result) ∧
      ∀ seed ∈ q.warm, q.low ≤ seed.1 → seed.1 ≤ q.high → seed.2 ≤ f q.result := by
  have hbest := bestKnown hpure hlt
  refine ⟨hbest.asked, ?_⟩
  intro seed hmem hlow hhigh
  rw [hpure.seeds seed hmem hlow hhigh]
  exact hbest.seeds seed hmem hlow hhigh

/-! ### A seed in a dead band -/

/-- Nothing but the seed at `40` scores. -/
def deadBandScore (amount : U256) : U256 := if amount = 40#256 then 9000#256 else 0

def deadBandSearch : SizeSearch where
  objective := fun _ => deadBandScore
  low := 1
  high := 100#256
  maxIterations := 16
  warm := [(40#256, 9000#256)]

lemma pure_deadBand : deadBandSearch.Pure deadBandScore where
  objective := rfl
  seeds := by simp [deadBandSearch, deadBandScore]

theorem score_le_result_deadBand :
    deadBandSearch.low < deadBandSearch.high ∧ deadBandSearch.Pure deadBandScore ∧
      (∀ amount ∈ deadBandSearch.asked, deadBandScore amount ≤ deadBandScore deadBandSearch.result) ∧
      ∀ seed ∈ deadBandSearch.warm, deadBandSearch.low ≤ seed.1 → seed.1 ≤ deadBandSearch.high →
        seed.2 ≤ deadBandScore deadBandSearch.result :=
  ⟨by decide, pure_deadBand, score_le_result deadBandSearch deadBandScore (by decide) pure_deadBand⟩

end SizeSearch

end PolygonArb

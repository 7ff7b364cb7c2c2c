import PolygonArb.Pipeline.Ternary

/-!
# Runs of the size search

The objective of `solveBrentOptimalWarm` may keep a state, so its answer depends on the sizes it was asked
for before.  A `SizeSearch` is one call of the search: the objective as a function of that history, the window,
the limit of turns and the seeds.  `Head` says in which states a turn begins, `Turn` what a turn does, and
`Ended` in which states the loop is left.

A turn that narrows the bracket makes one of the inner points its new end and spaces the next inner point from
there.  The points around a seed are not in the golden ratio, after which the two may cross, and an end
may pass the other one.  The search stays inside its window, and none of its words wraps, if and only if the
point that becomes an end is never beyond the other end (`staysInside_iff`).
-/

namespace PolygonArb

open Word Loop

/-- One call of the search.  The objective gets the sizes it was asked for before. -/
structure SizeSearch where
  objective : List U256 → U256 → U256
  low : U256
  high : U256
  maxIterations : ℕ
  warm : List (U256 × U256)

/-- The bracket is as narrow as the tolerance. -/
def BrentState.Converged (s : BrentState) : Prop :=
  saturatingSub s.b s.a ≤ max (saturatingSub s.b s.a / 1000#256) 1#256

instance (s : BrentState) : Decidable s.Converged :=
  inferInstanceAs (Decidable (saturatingSub s.b s.a ≤ _))

/-- A turn narrows the bracket, unless it is the second one on nothing but zeros. -/
def BrentState.Narrows (s : BrentState) : Prop :=
  s.leftValue = 0 ∧ s.rightValue = 0 → s.zeroStreak + 1 < 2

namespace SizeSearch

variable (q : SizeSearch)

/-- Ask the objective and note the size. -/
def evaluate (amount : U256) : StateM (List U256) U256 := fun asked =>
  (q.objective asked amount, asked ++ [amount])

def run : U256 × List U256 :=
  (solveBrentOptimalWarm q.evaluate q.low q.high q.maxIterations q.warm).run []

/-- The size the search returns. -/
def result : U256 := q.run.1

/-- The sizes the objective is called on, in order. -/
def asked : List U256 := q.run.2

def iterations : ℕ := if q.maxIterations = 0 then defaultBrentIterations else q.maxIterations

/-- The first bracket with its inner points scored. -/
def start : BrentState × List U256 :=
  (BrentState.probe q.evaluate ⟨q.low, q.high, 0, 0, 0, 0, 0, warmCache q.low q.high q.warm⟩
    (startPoints q.low q.high q.warm)).run []

/-- The states in which a turn may begin: the turns left, the locals, and the sizes asked for. -/
inductive Head : ℕ → BrentState → List U256 → Prop
  | start : Head q.iterations q.start.1 q.start.2
  | turn {n : ℕ} {s s' : BrentState} {asked asked' : List U256} (h : Head (n + 1) s asked)
      (hwide : ¬ s.Converged) (hturn : (s.turn q.evaluate q.warm).run asked = (.continue s', asked')) :
      Head n s' asked'

/-- The states in which the loop is left. -/
inductive Ended : BrentState → List U256 → Prop
  | exhausted {s : BrentState} {asked : List U256} (h : q.Head 0 s asked) : Ended s asked
  | converged {n : ℕ} {s : BrentState} {asked : List U256} (h : q.Head n s asked)
      (hconv : s.Converged) : Ended s asked
  | gaveUp {n : ℕ} {s s' : BrentState} {asked asked' : List U256} (h : q.Head (n + 1) s asked)
      (hwide : ¬ s.Converged) (hturn : (s.turn q.evaluate q.warm).run asked = (.break s', asked')) :
      Ended s' asked'

/-- The states in which turns begin, from the state `s` on. -/
def trace : ℕ → BrentState → List U256 → List BrentState
  | 0, s, _ => [s]
  | n + 1, s, asked =>
      s :: if s.Converged then [] else
        match (s.turn q.evaluate q.warm).run asked with
        | (.continue s', asked') => trace n s' asked'
        | (.break _, _) => []

/-- Compare the ends of the window, the inner points and the seeds. -/
def settle (s : BrentState) : StateM (List U256) U256 := do
  let (lowValue, cache) ← cachedEvaluate q.evaluate s.cache q.low
  let (highValue, _) ← cachedEvaluate q.evaluate cache q.high
  let ends := [(s.left, s.leftValue), (s.right, s.rightValue), (q.high, highValue)]
  let seeds := q.warm.filter fun seed => q.low ≤ seed.1 ∧ seed.1 ≤ q.high ∧ seed.2 ≠ 0
  pure ((ends ++ seeds).foldl betterOf (q.low, lowValue)).1

lemma run_of_lt (h : ¬ q.high ≤ q.low) :
    q.run = (q.settle
      ((brentLoop q.evaluate q.warm q.iterations q.start.1).run q.start.2).1).run
      ((brentLoop q.evaluate q.warm q.iterations q.start.1).run q.start.2).2 := by
  rw [run, solveBrentOptimalWarm, if_neg h]
  rfl

variable {q}

section Loop

variable {n : ℕ} {s s' : BrentState} {asked asked' : List U256}

lemma brentLoop_of_converged (h : s.Converged) :
    (brentLoop q.evaluate q.warm (n + 1) s).run asked = (s, asked) := by
  simp only [brentLoop, if_pos (show saturatingSub s.b s.a ≤ _ from h)]
  rfl

lemma brentLoop_of_continue (hwide : ¬ s.Converged)
    (hturn : (s.turn q.evaluate q.warm).run asked = (.continue s', asked')) :
    (brentLoop q.evaluate q.warm (n + 1) s).run asked =
      (brentLoop q.evaluate q.warm n s').run asked' := by
  simp only [brentLoop, if_neg (show ¬ saturatingSub s.b s.a ≤ _ from hwide)]
  rw [StateT.run_bind, hturn]
  rfl

lemma brentLoop_of_break (hwide : ¬ s.Converged)
    (hturn : (s.turn q.evaluate q.warm).run asked = (.break s', asked')) :
    (brentLoop q.evaluate q.warm (n + 1) s).run asked = (s', asked') := by
  simp only [brentLoop, if_neg (show ¬ saturatingSub s.b s.a ≤ _ from hwide)]
  rw [StateT.run_bind, hturn]
  rfl

/-- From a head the loop runs to a state in which it is left. -/
lemma ended_brentLoop (h : q.Head n s asked) :
    q.Ended ((brentLoop q.evaluate q.warm n s).run asked).1
      ((brentLoop q.evaluate q.warm n s).run asked).2 := by
  induction n generalizing s asked with
  | zero => exact .exhausted h
  | succ n ih =>
      by_cases hconv : s.Converged
      · rw [brentLoop_of_converged hconv]
        exact .converged h hconv
      · rcases hturn : (s.turn q.evaluate q.warm).run asked with ⟨step, asked'⟩
        cases step with
        | «continue» s' =>
            rw [brentLoop_of_continue hconv hturn]
            exact ih (.turn h hconv hturn)
        | «break» s' =>
            rw [brentLoop_of_break hconv hturn]
            exact .gaveUp h hconv hturn

end Loop

/-- From every head of a run over a window the run goes on in the same way. -/
lemma run_of_head {n : ℕ} {s : BrentState} {asked : List U256} (hlt : q.low < q.high)
    (h : q.Head n s asked) :
    q.run = (q.settle ((brentLoop q.evaluate q.warm n s).run asked).1).run
      ((brentLoop q.evaluate q.warm n s).run asked).2 := by
  induction h with
  | start => exact q.run_of_lt (BitVec.not_le.mpr hlt)
  | turn h hwide hturn ih =>
      rw [brentLoop_of_continue hwide hturn] at ih
      exact ih

/-- A run over a window ends in a state from which it settles. -/
lemma exists_ended (hlt : q.low < q.high) :
    ∃ s asked, q.Ended s asked ∧ q.run = (q.settle s).run asked :=
  ⟨_, _, ended_brentLoop .start, run_of_head hlt .start⟩

lemma run_of_converged {n : ℕ} {s : BrentState} {asked : List U256} (hlt : q.low < q.high)
    (h : q.Head n s asked) (hconv : s.Converged) : q.run = (q.settle s).run asked := by
  have hrun := run_of_head hlt h
  cases n with
  | zero => exact hrun
  | succ n =>
      rw [brentLoop_of_converged hconv] at hrun
      exact hrun

lemma mem_trace (n : ℕ) (s : BrentState) (asked : List U256) : s ∈ q.trace n s asked := by
  cases n <;> simp [trace]

/-- The trace of a run holds the states in which its turns begin. -/
lemma mem_trace_iff {s : BrentState} :
    s ∈ q.trace q.iterations q.start.1 q.start.2 ↔ ∃ n asked, q.Head n s asked := by
  constructor
  · have hheads : ∀ (n : ℕ) (s : BrentState) (asked : List U256), q.Head n s asked →
        ∀ x ∈ q.trace n s asked, ∃ m asked', q.Head m x asked' := by
      intro n
      induction n with
      | zero =>
          intro s asked h x hx
          rw [trace, List.mem_singleton] at hx
          exact ⟨0, asked, hx ▸ h⟩
      | succ n ih =>
          intro s asked h x hx
          rw [trace, List.mem_cons] at hx
          rcases hx with rfl | hx
          · exact ⟨n + 1, asked, h⟩
          · split_ifs at hx with hconv
            · simp at hx
            · rcases hturn : (s.turn q.evaluate q.warm).run asked with ⟨step, asked'⟩
              rw [hturn] at hx
              cases step with
              | «continue» s' => exact ih s' asked' (h.turn hconv hturn) x hx
              | «break» s' => simp at hx
    exact hheads _ _ _ .start s
  · rintro ⟨n, asked, h⟩
    have hsub : ∀ x ∈ q.trace n s asked, x ∈ q.trace q.iterations q.start.1 q.start.2 := by
      induction h with
      | start => exact fun x hx => hx
      | turn h hwide hturn ih =>
          intro x hx
          refine ih x ?_
          rw [trace, if_neg hwide, hturn]
          exact List.mem_cons_of_mem _ hx
    exact hsub s (mem_trace n s asked)

/-! ## Scores -/

variable (q) in
/-- A size gets its remembered score, or the objective is asked. -/
inductive Scores (cache : BrentCache) (asked : List U256) (amount : U256) :
    U256 → BrentCache → List U256 → Prop
  | remembered {score : U256} (h : cache.get amount = some score) :
      Scores cache asked amount score cache asked
  | fresh (h : cache.get amount = none) :
      Scores cache asked amount (q.objective asked amount)
        (cache.insert amount (q.objective asked amount)) (asked ++ [amount])

lemma scores_cachedEvaluate (cache : BrentCache) (asked : List U256) (amount : U256) :
    q.Scores cache asked amount ((cachedEvaluate q.evaluate cache amount).run asked).1.1
      ((cachedEvaluate q.evaluate cache amount).run asked).1.2
      ((cachedEvaluate q.evaluate cache amount).run asked).2 := by
  rw [cachedEvaluate]
  cases h : cache.get amount with
  | none => exact .fresh h
  | some score => exact .remembered h

/-! ## Turns -/

variable (q) in
/-- What a turn does to the locals and to the sizes asked for. -/
inductive Turn (s : BrentState) (asked : List U256) : LoopStep BrentState → List U256 → Prop
  | rise {score : U256} {cache : BrentCache} {asked' : List U256} (streak : ℕ)
      (hlt : s.leftValue < s.rightValue) (hnarrow : s.Narrows)
      (hscore : q.Scores s.cache asked (s.b - goldenPart (s.b - s.left)) score cache asked') :
      Turn s asked (.continue ⟨s.left, s.b, s.right, s.b - goldenPart (s.b - s.left), s.rightValue, score,
        streak, cache⟩) asked'
  | fall {score : U256} {cache : BrentCache} {asked' : List U256} (streak : ℕ)
      (hle : ¬ s.leftValue < s.rightValue) (hnarrow : s.Narrows)
      (hscore : q.Scores s.cache asked (s.a + goldenPart (s.right - s.a)) score cache asked') :
      Turn s asked (.continue ⟨s.a, s.right, s.a + goldenPart (s.right - s.a), s.left, score, s.leftValue,
        streak, cache⟩) asked'
  | recentre {hint points : U256 × U256} {leftScore rightScore : U256} {cache cache' : BrentCache}
      {asked' asked'' : List U256} (hstop : ¬ s.Narrows) (hhint : s.a ≤ hint.1 ∧ hint.1 ≤ s.b)
      (hpoints : points = pointsAround s.a s.b hint.1)
      (hleft : q.Scores s.cache asked points.1 leftScore cache asked')
      (hright : q.Scores cache asked' points.2 rightScore cache' asked'') :
      Turn s asked (.continue ⟨s.a, s.b, points.1, points.2, leftScore, rightScore, 0, cache'⟩) asked''
  | giveUp (points : U256 × U256) (hstop : ¬ s.Narrows)
      (hpoints : points = (s.left, s.right) ∨
        ∃ hint : U256, s.a ≤ hint ∧ hint ≤ s.b ∧ points = pointsAround s.a s.b hint) (streak : ℕ) :
      Turn s asked (.break ⟨s.a, s.b, points.1, points.2, s.leftValue, s.rightValue, streak, s.cache⟩) asked

lemma turn_narrow (s : BrentState) (asked : List U256) (streak : ℕ) (hnarrow : s.Narrows) :
    q.Turn s asked (.continue ((BrentState.narrow q.evaluate { s with zeroStreak := streak }).run asked).1)
      ((BrentState.narrow q.evaluate { s with zeroStreak := streak }).run asked).2 := by
  rw [BrentState.narrow]
  split
  case isTrue hlt => exact .rise streak hlt hnarrow (scores_cachedEvaluate _ _ _)
  case isFalse hle => exact .fall streak hle hnarrow (scores_cachedEvaluate _ _ _)

/-- The last seed wins over the best of the others when it is no worse. -/
lemma bestSeed_concat (seeds : List (U256 × U256)) (seed : U256 × U256) :
    bestSeed (seeds ++ [seed]) =
      (bestSeed seeds).elim (some seed) fun b => if b.2 ≤ seed.2 then some seed else some b := by
  rw [bestSeed, List.foldl_append]
  show List.foldl _ (bestSeed seeds) [seed] = _
  cases bestSeed seeds <;> rfl

/-- The best seed is one of the seeds. -/
lemma bestSeed_mem {seeds : List (U256 × U256)} {hint : U256 × U256} (h : bestSeed seeds = some hint) :
    hint ∈ seeds := by
  induction seeds using List.reverseRecOn with
  | nil => simp [bestSeed] at h
  | append_singleton seeds seed ih =>
      rw [bestSeed_concat] at h
      rw [List.mem_append, List.mem_singleton]
      cases hbest : bestSeed seeds with
      | none =>
          rw [hbest] at h
          exact .inr (Option.some.inj h).symm
      | some b =>
          rw [hbest] at h
          simp only [Option.elim_some] at h
          split_ifs at h
          · exact .inr (Option.some.inj h).symm
          · exact .inl (ih (hbest.trans h))

/-- Whatever a turn does is one of the four. -/
lemma turn_run (s : BrentState) (asked : List U256) :
    q.Turn s asked ((s.turn q.evaluate q.warm).run asked).1 ((s.turn q.evaluate q.warm).run asked).2 := by
  rw [BrentState.turn]
  by_cases hzero : s.leftValue = 0 ∧ s.rightValue = 0
  · rw [if_pos hzero]
    by_cases hstreak : s.zeroStreak + 1 < 2
    · rw [if_pos hstreak]
      exact turn_narrow s asked _ fun _ => hstreak
    · rw [if_neg hstreak]
      have hstop : ¬ s.Narrows := fun hnarrow => hstreak (hnarrow hzero)
      cases hhint : bestSeed (q.warm.filter fun seed => s.a ≤ seed.1 ∧ seed.1 ≤ s.b ∧ seed.2 ≠ 0) with
      | none => exact .giveUp (s.left, s.right) hstop (.inl rfl) _
      | some hint =>
          have hmem := List.of_mem_filter (bestSeed_mem hhint)
          simp only [ne_eq, decide_eq_true_eq] at hmem
          by_cases hlt : (pointsAround s.a s.b hint.1).1 < (pointsAround s.a s.b hint.1).2
          · simp only [if_pos hlt]
            exact .recentre hstop ⟨hmem.1, hmem.2.1⟩ rfl (scores_cachedEvaluate _ _ _)
              (scores_cachedEvaluate _ _ _)
          · simp only [if_neg hlt]
            exact .giveUp (pointsAround s.a s.b hint.1) hstop (.inr ⟨hint.1, hmem.1, hmem.2.1, rfl⟩) _
  · rw [if_neg hzero]
    exact turn_narrow s asked 0 fun h => absurd h hzero

lemma turn_of_eq {s : BrentState} {asked asked' : List U256} {step : LoopStep BrentState}
    (h : (s.turn q.evaluate q.warm).run asked = (step, asked')) : q.Turn s asked step asked' := by
  have hturn := turn_run (q := q) s asked
  rw [h] at hturn
  exact hturn

/-! ## Points of a bracket -/

/-- The part of a width, also where the product wraps. -/
lemma goldenPart_le (width : U256) : (goldenPart width).toNat ≤ width.toNat := by
  rw [goldenPart, BitVec.toNat_udiv]
  exact (Nat.div_le_div_right (toNat_mul_le _ _)).trans
    (by rw [show (382#256).toNat = 382 from rfl, show (1000#256).toNat = 1000 from rfl]; omega)

/-- A step up from the lower end of a bracket stays in it. -/
lemma lower_add_goldenPart {a b : U256} (h : a ≤ b) :
    a ≤ a + goldenPart (b - a) ∧ a + goldenPart (b - a) ≤ b := by
  have hpart := goldenPart_le (b - a)
  rw [le_iff] at h
  rw [toNat_sub_of_le h] at hpart
  have hb := toNat_lt b
  have hadd : (a + goldenPart (b - a)).toNat = a.toNat + (goldenPart (b - a)).toNat := by
    refine toNat_add_of_lt ?_
    omega
  rw [le_iff, le_iff, hadd]
  omega

/-- A step down from the upper end stays in it. -/
lemma upper_sub_goldenPart {a b : U256} (h : a ≤ b) :
    goldenPart (b - a) ≤ b ∧ a ≤ b - goldenPart (b - a) ∧ b - goldenPart (b - a) ≤ b := by
  have hpart := goldenPart_le (b - a)
  rw [le_iff] at h
  rw [toNat_sub_of_le h] at hpart
  have hsub : (b - goldenPart (b - a)).toNat = b.toNat - (goldenPart (b - a)).toNat :=
    toNat_sub_of_le (by omega)
  rw [le_iff, le_iff, le_iff, hsub]
  omega

/-- The points around a seed of the bracket are in the bracket. -/
lemma pointsAround_mem {a b hint : U256} (ha : a ≤ hint) (hb : hint ≤ b) :
    (a ≤ (pointsAround a b hint).1 ∧ (pointsAround a b hint).1 ≤ b) ∧
      a ≤ (pointsAround a b hint).2 ∧ (pointsAround a b hint).2 ≤ b := by
  rw [le_iff] at ha hb
  have hbound := toNat_lt hint
  simp only [pointsAround, le_iff, toNat_max, toNat_min, toNat_saturatingSub, toNat_saturatingAdd]
  omega

lemma goldenPoints_mem {a b : U256} (h : a ≤ b) :
    (a ≤ (goldenPoints a b).1 ∧ (goldenPoints a b).1 ≤ b) ∧
      a ≤ (goldenPoints a b).2 ∧ (goldenPoints a b).2 ≤ b :=
  ⟨lower_add_goldenPart h, (upper_sub_goldenPart h).2⟩

lemma startPoints_mem (warm : List (U256 × U256)) {low high : U256} (h : low ≤ high) :
    (low ≤ (startPoints low high warm).1 ∧ (startPoints low high warm).1 ≤ high) ∧
      low ≤ (startPoints low high warm).2 ∧ (startPoints low high warm).2 ≤ high := by
  rw [startPoints]
  split
  case h_1 => exact goldenPoints_mem h
  case h_2 hint hhint =>
      have hmem := List.of_mem_filter (bestSeed_mem (Option.eq_some_of_filter_eq_some hhint))
      rw [decide_eq_true_eq] at hmem
      dsimp only
      split_ifs
      · exact pointsAround_mem hmem.1 hmem.2
      · exact goldenPoints_mem h

/-! ## Settling -/

lemma betterOf_foldl_mem (candidates : List (U256 × U256)) (best : U256 × U256) :
    candidates.foldl betterOf best ∈ best :: candidates := by
  induction candidates generalizing best with
  | nil => simp
  | cons candidate candidates ih =>
      have hmem := ih (betterOf best candidate)
      have hstep : betterOf best candidate = best ∨ betterOf best candidate = candidate := by
        rw [betterOf]
        split_ifs
        · exact .inr rfl
        · exact .inl rfl
      rw [List.foldl_cons]
      rcases List.mem_cons.mp hmem with heq | hmem
      · rw [heq]
        rcases hstep with hstep | hstep <;> simp [hstep]
      · simp [hmem]

/-- No candidate has a greater score. -/
lemma le_betterOf_foldl (candidates : List (U256 × U256)) (best : U256 × U256) :
    ∀ candidate ∈ best :: candidates, candidate.2 ≤ (candidates.foldl betterOf best).2 := by
  induction candidates generalizing best with
  | nil => simp
  | cons head candidates ih =>
      have hbest : best.2 ≤ (betterOf best head).2 ∧ head.2 ≤ (betterOf best head).2 := by
        rw [betterOf]
        split_ifs with hlt
        · exact ⟨Std.le_of_lt hlt, Std.le_refl _⟩
        · exact ⟨Std.le_refl _, Std.not_lt.mp hlt⟩
      have hstep := ih (betterOf best head) _ List.mem_cons_self
      intro candidate hmem
      rw [List.foldl_cons]
      rcases List.mem_cons.mp hmem with rfl | hmem
      · exact Std.le_trans hbest.1 hstep
      · rcases List.mem_cons.mp hmem with rfl | hmem
        · exact Std.le_trans hbest.2 hstep
        · exact ih (betterOf best head) candidate (List.mem_cons_of_mem _ hmem)

variable (q) in
/-- What competes in the end. -/
def candidates (s : BrentState) (highValue : U256) : List (U256 × U256) :=
  [(s.left, s.leftValue), (s.right, s.rightValue), (q.high, highValue)] ++
    q.warm.filter fun seed => q.low ≤ seed.1 ∧ seed.1 ≤ q.high ∧ seed.2 ≠ 0

lemma settle_run (s : BrentState) (asked : List U256) :
    ∃ lowValue cache asked' highValue cache' asked'',
      q.Scores s.cache asked q.low lowValue cache asked' ∧
        q.Scores cache asked' q.high highValue cache' asked'' ∧
        (q.settle s).run asked =
          (((q.candidates s highValue).foldl betterOf (q.low, lowValue)).1, asked'') :=
  ⟨_, _, _, _, _, _, scores_cachedEvaluate _ _ _, scores_cachedEvaluate _ _ _, rfl⟩

/-- What competes in the end is in the window when the inner points are. -/
lemma candidates_mem {s : BrentState} {lowValue highValue : U256} (h : q.low < q.high)
    (hleft : q.low ≤ s.left ∧ s.left ≤ q.high) (hright : q.low ≤ s.right ∧ s.right ≤ q.high) :
    ∀ candidate ∈ (q.low, lowValue) :: q.candidates s highValue,
      q.low ≤ candidate.1 ∧ candidate.1 ≤ q.high := by
  intro candidate hmem
  simp only [candidates, List.mem_cons, List.mem_append, List.mem_filter, decide_eq_true_eq,
    List.not_mem_nil, or_false] at hmem
  rcases hmem with rfl | (rfl | rfl | rfl) | hseed
  · exact ⟨Std.le_refl _, Std.le_of_lt h⟩
  · exact hleft
  · exact hright
  · exact ⟨Std.le_of_lt h, Std.le_refl _⟩
  · exact ⟨hseed.2.1, hseed.2.2.1⟩

end SizeSearch

/-! ## Subtractions and products -/

/-- A subtraction or a multiplication of the search. -/
inductive WordOp
  | sub (x y : U256)
  | mul (x y : U256)

/-- The word holds the exact result; of a product that is said for windows below `2 ^ 246` only. -/
def WordOp.ExactBelow (high : U256) : WordOp → Prop
  | .sub x y => y ≤ x
  | .mul x y => high.toNat < 2 ^ 246 → x.toNat * y.toNat < 2 ^ 256

/-- A product with a width of the window is exact. -/
lemma exactBelow_mul {high width : U256} (h : width ≤ high) : (WordOp.mul width 382#256).ExactBelow high := by
  intro hhigh
  rw [le_iff] at h
  rw [show (382#256).toNat = 382 from rfl]
  omega

def startOps (low high : U256) (warm : List (U256 × U256)) : List WordOp :=
  match (bestSeed (warm.filter fun seed => low ≤ seed.1 ∧ seed.1 ≤ high)).filter (·.2 ≠ 0) with
  | none =>
      [.sub high low, .mul (high - low) 382#256, .sub high low, .mul (high - low) 382#256,
        .sub high (goldenPart (high - low))]
  | some hint =>
      let points := pointsAround low high hint.1
      let width := saturatingSub high low
      .mul width 382#256 :: if points.1 < points.2 then []
        else [.mul width 382#256, .mul width 382#256, .sub high (goldenPart width)]

namespace BrentState

variable (s : BrentState)

def narrowOps : List WordOp :=
  if s.leftValue < s.rightValue then
    [.sub s.b s.left, .mul (s.b - s.left) 382#256, .sub s.b (goldenPart (s.b - s.left))]
  else [.sub s.right s.a, .mul (s.right - s.a) 382#256]

def turnOps (warm : List (U256 × U256)) : List WordOp :=
  if s.leftValue = 0 ∧ s.rightValue = 0 ∧ 2 ≤ s.zeroStreak + 1 then
    match bestSeed (warm.filter fun seed => s.a ≤ seed.1 ∧ seed.1 ≤ s.b ∧ seed.2 ≠ 0) with
    | none => []
    | some _ => [.mul (saturatingSub s.b s.a) 382#256]
  else s.narrowOps

/-- The inner point that becomes an end of the bracket is not beyond the other end. -/
def EndsInOrder : Prop := if s.leftValue < s.rightValue then s.left ≤ s.b else s.a ≤ s.right

/-- Both inner points are in the bracket. -/
def PointsInside : Prop := (s.a ≤ s.left ∧ s.left ≤ s.b) ∧ s.a ≤ s.right ∧ s.right ≤ s.b

instance : Decidable s.PointsInside := inferInstanceAs (Decidable (_ ∧ _))

instance : Decidable s.Narrows := inferInstanceAs (Decidable (_ → _))

variable {s} in
lemma PointsInside.endsInOrder (h : s.PointsInside) : s.EndsInOrder := by
  rw [EndsInOrder]
  split_ifs
  · exact h.1.2
  · exact h.2.1

end BrentState

namespace SizeSearch

variable (q : SizeSearch)

def InWindow (amount : U256) : Prop := q.low ≤ amount ∧ amount ≤ q.high

/-- The operations of a run: those of its start and those of every turn it takes. -/
inductive Performs : WordOp → Prop
  | start {op : WordOp} (h : op ∈ startOps q.low q.high q.warm) : Performs op
  | turn {op : WordOp} {n : ℕ} {s : BrentState} {asked : List U256} (h : q.Head (n + 1) s asked)
      (hwide : ¬ s.Converged) (hop : op ∈ s.turnOps q.warm) : Performs op

/-- The run asks for sizes of its window only, returns one of them, and no word wraps. -/
structure StaysInside : Prop where
  asked : ∀ amount ∈ q.asked, q.InWindow amount
  result : q.InWindow q.result
  exact : ∀ op, q.Performs op → op.ExactBelow q.high

/-- A bracket with its inner points within the window. -/
structure Inside (s : BrentState) (asked : List U256) : Prop where
  low_le : q.low ≤ s.a
  ordered : s.a ≤ s.b
  le_high : s.b ≤ q.high
  left : q.InWindow s.left
  right : q.InWindow s.right
  asked : ∀ amount ∈ asked, q.InWindow amount

variable {q}

lemma InWindow.mono {a b amount : U256} (ha : q.low ≤ a) (hb : b ≤ q.high)
    (h : a ≤ amount ∧ amount ≤ b) : q.InWindow amount :=
  ⟨Std.le_trans ha h.1, Std.le_trans h.2 hb⟩

lemma Scores.inWindow {cache cache' : BrentCache} {asked asked' : List U256} {amount score : U256}
    (h : q.Scores cache asked amount score cache' asked') (hamount : q.InWindow amount)
    (hasked : ∀ x ∈ asked, q.InWindow x) : ∀ x ∈ asked', q.InWindow x := by
  cases h with
  | remembered h => exact hasked
  | fresh h =>
      intro x hx
      rw [List.mem_append, List.mem_singleton] at hx
      rcases hx with hx | rfl
      · exact hasked x hx
      · exact hamount

/-- The first bracket and its inner points are in the window. -/
lemma inside_start (h : q.low < q.high) : q.Inside q.start.1 q.start.2 := by
  have hle := Std.le_of_lt h
  have hpoints := startPoints_mem q.warm hle
  refine ⟨Std.le_refl _, hle, Std.le_refl _, hpoints.1, hpoints.2, ?_⟩
  exact (scores_cachedEvaluate _ _ _).inWindow hpoints.2
    ((scores_cachedEvaluate _ _ _).inWindow hpoints.1 (by simp))

/-- A turn stays inside the window if its new end is in order with the other one. -/
lemma Turn.inside {s : BrentState} {asked asked' : List U256} {step : LoopStep BrentState}
    (h : q.Turn s asked step asked') (hs : q.Inside s asked) (hends : s.Narrows → s.EndsInOrder) :
    q.Inside step.state asked' := by
  cases h with
  | rise streak hlt hnarrow hscore =>
      have hle := hends hnarrow
      rw [BrentState.EndsInOrder, if_pos hlt] at hle
      have hpoint := InWindow.mono hs.left.1 hs.le_high (upper_sub_goldenPart hle).2
      exact ⟨hs.left.1, hle, hs.le_high, hs.right, hpoint, hscore.inWindow hpoint hs.asked⟩
  | fall streak hnlt hnarrow hscore =>
      have hle := hends hnarrow
      rw [BrentState.EndsInOrder, if_neg hnlt] at hle
      have hpoint := InWindow.mono hs.low_le hs.right.2 (lower_add_goldenPart hle)
      exact ⟨hs.low_le, hle, hs.right.2, hpoint, hs.left, hscore.inWindow hpoint hs.asked⟩
  | recentre hstop hhint hpoints hleft hright =>
      have hmem := pointsAround_mem hhint.1 hhint.2
      rw [← hpoints] at hmem
      have hl := InWindow.mono hs.low_le hs.le_high hmem.1
      have hr := InWindow.mono hs.low_le hs.le_high hmem.2
      exact ⟨hs.low_le, hs.ordered, hs.le_high, hl, hr,
        hright.inWindow hr (hleft.inWindow hl hs.asked)⟩
  | giveUp points hstop hpoints streak =>
      rcases hpoints with rfl | ⟨hint, ha, hb, rfl⟩
      · exact ⟨hs.low_le, hs.ordered, hs.le_high, hs.left, hs.right, hs.asked⟩
      · have hmem := pointsAround_mem ha hb
        exact ⟨hs.low_le, hs.ordered, hs.le_high, InWindow.mono hs.low_le hs.le_high hmem.1,
          InWindow.mono hs.low_le hs.le_high hmem.2, hs.asked⟩

variable (q) in
/-- Every turn of the run that narrows its bracket leaves the ends of it in order. -/
def EndsInOrder : Prop :=
  ∀ n s asked, q.Head (n + 1) s asked → ¬ s.Converged → s.Narrows → s.EndsInOrder

lemma Head.inside {n : ℕ} {s : BrentState} {asked : List U256} (h : q.Head n s asked)
    (hlt : q.low < q.high) (hends : q.EndsInOrder) : q.Inside s asked := by
  induction h with
  | start => exact inside_start hlt
  | turn h hwide hturn ih => exact (turn_of_eq hturn).inside ih (hends _ _ _ h hwide)

lemma Ended.inside {s : BrentState} {asked : List U256} (h : q.Ended s asked)
    (hlt : q.low < q.high) (hends : q.EndsInOrder) : q.Inside s asked := by
  cases h with
  | exhausted h => exact h.inside hlt hends
  | converged h hconv => exact h.inside hlt hends
  | gaveUp h hwide hturn => exact (turn_of_eq hturn).inside (h.inside hlt hends) (hends _ _ _ h hwide)

/-! ## Inside the window -/

lemma sub_le_high {a b : U256} (hab : a ≤ b) (hb : b ≤ q.high) : b - a ≤ q.high := by
  rw [le_iff] at hab hb ⊢
  rw [toNat_sub_of_le hab]
  omega

lemma saturatingSub_le_high {b : U256} (a : U256) (hb : b ≤ q.high) : saturatingSub b a ≤ q.high := by
  rw [le_iff] at hb ⊢
  rw [toNat_saturatingSub]
  omega

lemma saturatingSub_of_le {a b : U256} (hab : a ≤ b) : saturatingSub b a = b - a := by
  rw [← BitVec.toNat_inj, toNat_saturatingSub, toNat_sub_of_le (le_iff.mp hab)]

lemma exact_startOps (h : q.low < q.high) :
    ∀ op ∈ startOps q.low q.high q.warm, op.ExactBelow q.high := by
  have hle := Std.le_of_lt h
  have hsub : (WordOp.sub q.high q.low).ExactBelow q.high := hle
  have hmul := exactBelow_mul (sub_le_high hle (Std.le_refl q.high))
  have hupper : (WordOp.sub q.high (goldenPart (q.high - q.low))).ExactBelow q.high :=
    (upper_sub_goldenPart hle).1
  intro op hop
  rw [startOps] at hop
  split at hop
  case h_1 =>
      simp only [List.mem_cons, List.not_mem_nil, or_false] at hop
      rcases hop with rfl | rfl | rfl | rfl | rfl <;> assumption
  case h_2 hint hhint =>
      rw [saturatingSub_of_le hle] at hop
      rcases List.mem_cons.mp hop with rfl | hop
      · exact hmul
      · split_ifs at hop
        · simp at hop
        · simp only [List.mem_cons, List.not_mem_nil, or_false] at hop
          rcases hop with rfl | rfl | rfl <;> assumption

lemma Inside.exact_narrowOps {s : BrentState} {asked : List U256} (hs : q.Inside s asked)
    (hends : s.EndsInOrder) : ∀ op ∈ s.narrowOps, op.ExactBelow q.high := by
  intro op hop
  rw [BrentState.narrowOps] at hop
  rw [BrentState.EndsInOrder] at hends
  split_ifs at hop hends with hlt
  · have hmul := exactBelow_mul (sub_le_high hends hs.le_high)
    have hupper := (upper_sub_goldenPart hends).1
    simp only [List.mem_cons, List.not_mem_nil, or_false] at hop
    rcases hop with rfl | rfl | rfl <;> assumption
  · have hmul := exactBelow_mul (sub_le_high hends hs.right.2)
    simp only [List.mem_cons, List.not_mem_nil, or_false] at hop
    rcases hop with rfl | rfl <;> assumption

lemma turnOps_of_narrows {s : BrentState} (hnarrow : s.Narrows) (warm : List (U256 × U256)) :
    s.turnOps warm = s.narrowOps := by
  rw [BrentState.turnOps, if_neg]
  intro h
  have hstreak := hnarrow ⟨h.1, h.2.1⟩
  omega

lemma Inside.exact_turnOps {s : BrentState} {asked : List U256} (hs : q.Inside s asked)
    (hends : s.Narrows → s.EndsInOrder) : ∀ op ∈ s.turnOps q.warm, op.ExactBelow q.high := by
  by_cases hnarrow : s.Narrows
  · rw [turnOps_of_narrows hnarrow]
    exact hs.exact_narrowOps (hends hnarrow)
  · intro op hop
    have hzero : s.leftValue = 0 ∧ s.rightValue = 0 ∧ 2 ≤ s.zeroStreak + 1 := by
      by_contra hne
      exact hnarrow fun hvalues => by
        by_contra hstreak
        exact hne ⟨hvalues.1, hvalues.2, by omega⟩
    rw [BrentState.turnOps, if_pos hzero] at hop
    split at hop
    case h_1 => simp at hop
    case h_2 =>
        obtain rfl := List.mem_singleton.mp hop
        exact exactBelow_mul (saturatingSub_le_high s.a hs.le_high)

/-- The search stays inside its window and none of its words wraps if and only if, in every turn that
narrows the bracket, the inner point that becomes an end is not beyond the other end. -/
lemma staysInside_iff (hlt : q.low < q.high) : q.StaysInside ↔ q.EndsInOrder := by
  constructor
  · intro hinside n s asked hhead hwide hnarrow
    -- the width of the next bracket is the first subtraction of the turn
    have hexact := fun op hop => hinside.exact op (.turn hhead hwide hop)
    rw [turnOps_of_narrows hnarrow, BrentState.narrowOps] at hexact
    rw [BrentState.EndsInOrder]
    split_ifs at hexact ⊢ with hrise
    · exact hexact (.sub s.b s.left) (by simp)
    · exact hexact (.sub s.right s.a) (by simp)
  · intro hends
    rcases exists_ended hlt with ⟨s, asked, hended, hrun⟩
    have hs := hended.inside hlt hends
    rcases settle_run (q := q) s asked with
      ⟨lowValue, cache, asked', highValue, cache', asked'', hlow, hhigh, hsettle⟩
    rw [hsettle] at hrun
    have hle := Std.le_of_lt hlt
    refine ⟨?_, ?_, ?_⟩
    · rw [SizeSearch.asked, hrun]
      exact hhigh.inWindow ⟨hle, Std.le_refl _⟩ (hlow.inWindow ⟨Std.le_refl _, hle⟩ hs.asked)
    · rw [SizeSearch.result, hrun]
      exact candidates_mem hlt hs.left hs.right _ (betterOf_foldl_mem _ _)
    · intro op hop
      cases hop with
      | start h => exact exact_startOps hlt op h
      | turn h hwide hop =>
          exact (h.inside hlt hends).exact_turnOps (hends _ _ _ h hwide) op hop

variable (q) in
/-- Every turn of the run that narrows its bracket starts with both inner points in it. -/
def PointsInside : Prop :=
  ∀ n s asked, q.Head (n + 1) s asked → ¬ s.Converged → s.Narrows → s.PointsInside

/-- A search whose inner points are in the bracket whenever it narrows the bracket stays inside its window,
and none of its words wraps. -/
theorem staysInside_of_pointsInside (q : SizeSearch) (hlt : q.low < q.high) (h : q.PointsInside) :
    q.StaysInside :=
  (staysInside_iff hlt).mpr fun n s asked hhead hwide hnarrow =>
    (h n s asked hhead hwide hnarrow).endsInOrder

/-- A tent over `[0, 1000]`. -/
def tentSearch : SizeSearch where
  objective := fun _ amount => min amount (1000#256 - amount)
  low := 0
  high := 1000#256
  maxIterations := 16
  warm := []

theorem staysInside_of_pointsInside_tent : tentSearch.PointsInside ∧ tentSearch.StaysInside := by
  have hinside : tentSearch.PointsInside := by
    have htrace : ∀ s ∈ tentSearch.trace tentSearch.iterations tentSearch.start.1 tentSearch.start.2,
        ¬ s.Converged → s.Narrows → s.PointsInside := by
      decide +kernel
    exact fun n s asked hhead => htrace s (mem_trace_iff.mpr ⟨n + 1, asked, hhead⟩)
  exact ⟨hinside, staysInside_of_pointsInside tentSearch (by decide) hinside⟩

/-! ### Crossed points -/

/-- A seed in the middle of `[0, 1000]` puts the inner points at `118` and `882`. -/
def crossedScore (amount : U256) : U256 :=
  if amount = 882#256 then 2
  else if amount = 664#256 then 3
  else if amount = 909#256 then 4
  else if 1000#256 < amount then 5
  else 1

def crossedSearch : SizeSearch where
  objective := fun _ => crossedScore
  low := 0
  high := 1000#256
  maxIterations := 16
  warm := [(500#256, 1)]

/-- The bracket becomes `[882, 955]` with `664` still its right point, and the fourth turn subtracts. -/
lemma crossedSearch_performs : crossedSearch.Performs (.sub 664#256 882#256) := by
  have hstart : crossedSearch.Head 16 crossedSearch.start.1 crossedSearch.start.2 := .start
  have hfirst := hstart.turn (by decide) rfl
  have hsecond := hfirst.turn (by decide) rfl
  have hthird := hsecond.turn (by decide) rfl
  exact .turn hthird (by decide) (.head _)

/-- The search asks for a size far above its window and returns it. -/
theorem crossedSearch_leaves :
    crossedSearch.low < crossedSearch.high ∧ crossedSearch.high.toNat < 2 ^ 246 ∧
      (∃ amount ∈ crossedSearch.asked, crossedSearch.high < amount) ∧
      crossedSearch.high < crossedSearch.result ∧
      ∃ op, crossedSearch.Performs op ∧ ¬ op.ExactBelow crossedSearch.high := by
  have hrun : crossedSearch.result ∈ crossedSearch.asked ∧ crossedSearch.high < crossedSearch.result := by
    decide +kernel
  refine ⟨by decide, by decide, ⟨_, hrun⟩, hrun.2, _, crossedSearch_performs, ?_⟩
  intro hexact
  exact absurd (show (882#256 : U256) ≤ 664#256 from hexact) (by decide)

end SizeSearch

end PolygonArb

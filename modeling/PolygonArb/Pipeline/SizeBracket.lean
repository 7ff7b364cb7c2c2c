import PolygonArb.Lib.Unimodal
import PolygonArb.Pipeline.SizeSearchBest

/-!
# The bracket of a size search

Over a strictly unimodal profit the bracket `[a, b]` is meant to keep the best size until it is as narrow as
the tolerance.  A turn that finds its inner points in order keeps it.  One that finds them crossed drops it at
once, and one that finds them equal drops it when it is to their right, because a tie drops the right part
(`brackets_iff`).

While the bracket keeps the best size both ends have been scored, so a search that converges returns the best
size itself and not only one within the tolerance (`findsPeak_of_pointsApart`).
-/

namespace PolygonArb

open Word Loop Unimodal

namespace BrentState

variable (s : BrentState) (peak : U256)

def tolerance : U256 := max (saturatingSub s.b s.a / 1000#256) 1#256

def Brackets : Prop := s.a ≤ peak ∧ peak ≤ s.b

/-- The inner points are in order, or they coincide and the size is not to their right. -/
def InOrder : Prop := s.left < s.right ∨ s.left = s.right ∧ peak ≤ s.right

lemma InOrder.le {s : BrentState} {peak : U256} (h : s.InOrder peak) : s.left ≤ s.right := by
  rcases h with hlt | ⟨heq, -⟩
  · exact Std.le_of_lt hlt
  · exact Std.le_of_eq heq

/-- A converged bracket holds nothing but its ends. -/
lemma Converged.eq_or_eq {s : BrentState} {peak : U256} (h : s.Converged) (hpeak : s.Brackets peak) :
    peak = s.a ∨ peak = s.b := by
  rcases hpeak with ⟨ha, hb⟩
  rw [Converged] at h
  simp only [le_iff, toNat_max, toNat_saturatingSub, BitVec.toNat_udiv] at h ha hb
  rw [show (1000#256).toNat = 1000 from rfl, show (1#256).toNat = 1 from rfl] at h
  rw [← BitVec.toNat_inj, ← BitVec.toNat_inj]
  omega

end BrentState

namespace SizeSearch

variable {q : SizeSearch} {f : U256 → U256} {peak : U256}

variable (q f peak) in
/-- A pure objective, strictly unimodal and nowhere zero in the window, that the seeds agree with. -/
structure UnimodalProfit : Prop where
  pure : q.Pure f
  unimodal : StrictUnimodal f q.low q.high peak
  nonzero : ∀ amount, q.InWindow amount → f amount ≠ 0

variable (q) in
/-- A size with a score when the search settles: an end of the window, or a known one. -/
def Compared (asked : List U256) (amount : U256) : Prop :=
  amount = q.low ∨ amount = q.high ∨ q.Known asked amount

variable (q f) in
/-- The inner points are in the bracket and carry their own scores; its ends have been scored. -/
structure Bracketing (s : BrentState) (asked : List U256) : Prop where
  seen : q.Seen f s asked
  low_le : q.low ≤ s.a
  le_high : s.b ≤ q.high
  left : s.a ≤ s.left ∧ s.left ≤ s.b
  right : s.a ≤ s.right ∧ s.right ≤ s.b
  leftValue : s.leftValue = f s.left
  rightValue : s.rightValue = f s.right
  known : ∀ amount ∈ [s.a, s.b, s.left, s.right], q.Compared asked amount

namespace Bracketing

variable {s : BrentState} {asked : List U256}

lemma left_mem (h : q.Bracketing f s asked) : q.InWindow s.left := .mono h.low_le h.le_high h.left

lemma right_mem (h : q.Bracketing f s asked) : q.InWindow s.right := .mono h.low_le h.le_high h.right

/-- Inner points that score do not send the search to a seed. -/
lemma narrows (h : q.Bracketing f s asked) (hprofit : q.UnimodalProfit f peak) : s.Narrows := by
  rintro ⟨hzero, -⟩
  rw [h.leftValue] at hzero
  exact absurd hzero (hprofit.nonzero _ h.left_mem)

end Bracketing

lemma Compared.mono {asked asked' : List U256} {amount : U256} (hsub : ∀ x ∈ asked, x ∈ asked')
    (h : q.Compared asked amount) : q.Compared asked' amount :=
  h.imp_right fun h => h.imp_right (Known.mono hsub)

lemma bracketing_start (hlt : q.low < q.high) (hprofit : q.UnimodalProfit f peak) :
    q.Bracketing f q.start.1 q.start.2 := by
  have hpoints := startPoints_mem q.warm (Std.le_of_lt hlt)
  have hleft := scores_cachedEvaluate (q := q) (warmCache q.low q.high q.warm) []
    (startPoints q.low q.high q.warm).1
  have hright := scores_cachedEvaluate (q := q)
    ((cachedEvaluate q.evaluate (warmCache q.low q.high q.warm)
      (startPoints q.low q.high q.warm).1).run []).1.2
    ((cachedEvaluate q.evaluate (warmCache q.low q.high q.warm)
      (startPoints q.low q.high q.warm).1).run []).2 (startPoints q.low q.high q.warm).2
  rcases hleft.sound hprofit.pure (sound_warmCache hprofit.pure) with ⟨hlv, hsound, hlk, -⟩
  rcases hright.sound hprofit.pure hsound with ⟨hrv, -, hrk, -⟩
  refine ⟨seen_start hprofit.pure, Std.le_refl _, Std.le_refl _, hpoints.1, hpoints.2, hlv, hrv, ?_⟩
  intro amount hamount
  simp only [List.mem_cons, List.not_mem_nil, or_false] at hamount
  rcases hamount with rfl | rfl | rfl | rfl
  · exact .inl rfl
  · exact .inr (.inl rfl)
  · exact .inr (.inr (hlk.mono hright.asked_subset))
  · exact .inr (.inr hrk)

/-- A turn with its inner points not crossed goes on with a bracket around them. -/
lemma Turn.bracketing {s s' : BrentState} {asked asked' : List U256}
    (h : q.Turn s asked (.continue s') asked') (hprofit : q.UnimodalProfit f peak)
    (hs : q.Bracketing f s asked) (hle : s.left ≤ s.right) : q.Bracketing f s' asked' := by
  have hseen := h.seen hprofit.pure hs.seen
  have hnarrows := hs.narrows hprofit
  have hknown := hs.known
  simp only [List.forall_mem_cons] at hknown
  rcases hknown with ⟨hka, hkb, hkl, hkr, -⟩
  cases h with
  | rise streak hlt hnarrow hscore =>
      have hpoint := upper_sub_goldenPart hs.left.2
      rcases hscore.sound hprofit.pure hs.seen.sound with ⟨hvalue, -, hnew, -⟩
      refine ⟨hseen, Std.le_trans hs.low_le hs.left.1, hs.le_high, ⟨hle, hs.right.2⟩, hpoint.2,
        hs.rightValue, hvalue, ?_⟩
      simp only [List.forall_mem_cons]
      have hsub := hscore.asked_subset
      exact ⟨hkl.mono hsub, hkb.mono hsub, hkr.mono hsub, .inr (.inr hnew), by simp⟩
  | fall streak hnlt hnarrow hscore =>
      have hpoint := lower_add_goldenPart hs.right.1
      rcases hscore.sound hprofit.pure hs.seen.sound with ⟨hvalue, -, hnew, -⟩
      refine ⟨hseen, hs.low_le, Std.le_trans hs.right.2 hs.le_high, hpoint, ⟨hs.left.1, hle⟩,
        hvalue, hs.leftValue, ?_⟩
      simp only [List.forall_mem_cons]
      have hsub := hscore.asked_subset
      exact ⟨hka.mono hsub, hkr.mono hsub, .inr (.inr hnew), hkl.mono hsub, by simp⟩
  | recentre hstop => exact absurd hnarrows hstop

/-- A turn keeps the best size in its bracket if and only if its inner points are in order. -/
lemma Turn.brackets_iff {s s' : BrentState} {asked asked' : List U256}
    (h : q.Turn s asked (.continue s') asked') (hprofit : q.UnimodalProfit f peak)
    (hs : q.Bracketing f s asked) (hpeak : s.Brackets peak) : s'.Brackets peak ↔ s.InOrder peak := by
  have hkeeps := hprofit.unimodal.keeps_peak_iff hs.left_mem.1 hs.left_mem.2 hs.right_mem.1
    hs.right_mem.2
  rw [BrentState.InOrder, ← hkeeps, BrentState.Brackets, ← hs.leftValue, ← hs.rightValue]
  cases h with
  | rise streak hlt =>
      rw [if_pos hlt]
      exact and_iff_left hpeak.2
  | fall streak hnlt =>
      rw [if_neg hnlt]
      exact and_iff_right hpeak.1
  | recentre hstop => exact absurd (hs.narrows hprofit) hstop

variable (q peak) in
/-- Every turn of the run finds its inner points in order. -/
def PointsInOrder : Prop :=
  ∀ n s asked, q.Head (n + 1) s asked → ¬ s.Converged → s.InOrder peak

/-- Over turns that find their points in order the bracket is kept around them. -/
lemma Head.bracketing {n : ℕ} {s : BrentState} {asked : List U256} (h : q.Head n s asked)
    (hlt : q.low < q.high) (hprofit : q.UnimodalProfit f peak)
    (horder : ∀ n s asked, q.Head (n + 1) s asked → ¬ s.Converged → q.Bracketing f s asked →
      s.InOrder peak) : q.Bracketing f s asked := by
  induction h with
  | start => exact bracketing_start hlt hprofit
  | turn h hwide hturn ih =>
      exact (turn_of_eq hturn).bracketing hprofit ih (horder _ _ _ h hwide ih).le

lemma Head.brackets {n : ℕ} {s : BrentState} {asked : List U256} (h : q.Head n s asked)
    (hlt : q.low < q.high) (hprofit : q.UnimodalProfit f peak) (horder : q.PointsInOrder peak) :
    s.Brackets peak := by
  induction h with
  | start => exact ⟨hprofit.unimodal.lo_le, hprofit.unimodal.le_hi⟩
  | turn h hwide hturn ih =>
      have hs := h.bracketing hlt hprofit fun n s asked h hwide _ => horder n s asked h hwide
      exact ((turn_of_eq hturn).brackets_iff hprofit hs ih).mpr (horder _ _ _ h hwide)

/-- A turn with inner points that score goes on. -/
lemma exists_turn {s : BrentState} {asked : List U256} (hnarrow : s.Narrows) :
    ∃ s' asked', (s.turn q.evaluate q.warm).run asked = (.continue s', asked') := by
  rcases hturn : (s.turn q.evaluate q.warm).run asked with ⟨step, asked'⟩
  cases step with
  | «continue» s' => exact ⟨s', asked', rfl⟩
  | «break» s' =>
      cases turn_of_eq hturn with
      | giveUp points hstop => exact absurd hnarrow hstop

/-- The score of a size that is compared is at most the score of the result. -/
lemma BestKnown.le_of_compared (h : q.BestKnown f) {asked : List U256}
    (hsub : ∀ x ∈ asked, x ∈ q.asked) {amount : U256} (hamount : q.Compared asked amount) :
    f amount ≤ f q.result := by
  rcases hamount with rfl | rfl | hasked | ⟨seed, hmem, hlow, hhigh, rfl⟩
  · exact h.low
  · exact h.high
  · exact h.asked amount (hsub amount hasked)
  · exact h.seeds seed hmem hlow hhigh

/-- A search that converges around the best size returns it. -/
lemma Bracketing.result_eq {n : ℕ} {s : BrentState} {asked : List U256}
    (hs : q.Bracketing f s asked) (hlt : q.low < q.high) (hprofit : q.UnimodalProfit f peak)
    (h : q.Head n s asked) (hconv : s.Converged) (hpeak : s.Brackets peak) : q.result = peak := by
  rcases settle_run (q := q) s asked with
    ⟨lowValue, cache, asked', highValue, cache', asked'', hlow, hhigh, hsettle⟩
  have hrun := (run_of_converged hlt h hconv).trans hsettle
  have hsub : ∀ x ∈ asked, x ∈ q.asked := by
    intro x hx
    rw [SizeSearch.asked, hrun]
    exact hhigh.asked_subset x (hlow.asked_subset x hx)
  have hwindow : q.InWindow q.result := by
    rw [SizeSearch.result, hrun]
    exact candidates_mem hlt hs.left_mem hs.right_mem _ (betterOf_foldl_mem _ _)
  have hbest := bestKnown hprofit.pure hlt
  refine hprofit.unimodal.eq_peak hwindow.1 hwindow.2 ?_
  rcases hconv.eq_or_eq hpeak with heq | heq
  · rw [heq]
    exact hbest.le_of_compared hsub (hs.known s.a (by simp))
  · rw [heq]
    exact hbest.le_of_compared hsub (hs.known s.b (by simp))

variable (q peak) in
/-- Every bracket of the run holds the best size, and a run that converges returns a size within its
last tolerance of it. -/
structure FindsPeak : Prop where
  brackets : ∀ n s asked, q.Head n s asked → s.Brackets peak
  result : ∀ n s asked, q.Head n s asked → s.Converged → absDiff q.result peak ≤ s.tolerance

/-- Over a strictly unimodal profit that is nowhere zero, the bracket keeps the best size and a search that
converges finds it if and only if every turn finds its inner points in order. -/
lemma findsPeak_iff (hlt : q.low < q.high) (hprofit : q.UnimodalProfit f peak) :
    q.FindsPeak peak ↔ q.PointsInOrder peak := by
  constructor
  · intro hfinds n s asked h hwide
    have horder : ∀ n s asked, q.Head (n + 1) s asked → ¬ s.Converged → q.Bracketing f s asked →
        s.InOrder peak := by
      intro n s asked h hwide hs
      have hnext : ∃ s' asked', (s.turn q.evaluate q.warm).run asked = (.continue s', asked') :=
        exists_turn (hs.narrows hprofit)
      rcases hnext with ⟨s', asked', hturn⟩
      exact ((turn_of_eq hturn).brackets_iff hprofit hs (hfinds.brackets _ _ _ h)).mp
        (hfinds.brackets _ _ _ (h.turn hwide hturn))
    exact horder n s asked h hwide (h.bracketing hlt hprofit horder)
  · intro horder
    refine ⟨fun n s asked h => h.brackets hlt hprofit horder, ?_⟩
    intro n s asked h hconv
    have hs := h.bracketing hlt hprofit fun n s asked h hwide _ => horder n s asked h hwide
    rw [hs.result_eq hlt hprofit h hconv (h.brackets hlt hprofit horder), absDiff]
    simp [BrentState.tolerance, le_iff]

variable (q) in
/-- Every turn of the run starts with its left point below its right one. -/
def PointsApart : Prop := ∀ n s asked, q.Head (n + 1) s asked → ¬ s.Converged → s.left < s.right

/-- Over a strictly unimodal profit that is nowhere zero, a search whose inner points never meet keeps the best
size in its bracket, and finds it when it converges. -/
theorem findsPeak_of_pointsApart (q : SizeSearch) (f : U256 → U256) (peak : U256) (hlt : q.low < q.high)
    (hprofit : q.UnimodalProfit f peak) (hapart : q.PointsApart) : q.FindsPeak peak :=
  (findsPeak_iff hlt hprofit).mpr fun n s asked hhead hwide => .inl (hapart n s asked hhead hwide)

/-! ### A seed right of the middle -/

/-- Ten thousand less the square of the distance to a peak. -/
def peakedAt (peak amount : U256) : U256 :=
  saturatingSub 10000#256 (absDiff amount peak * absDiff amount peak)

/-- The points around the seed at `69` are `31` and the upper end. -/
def offCentreSearch : SizeSearch where
  objective := fun _ => peakedAt 83#256
  low := 0
  high := 100#256
  maxIterations := 16
  warm := [(69#256, peakedAt 83#256 69#256)]

lemma toNat_absDiff_dist (a b : U256) : (absDiff a b).toNat = Nat.dist a.toNat b.toNat := by
  rw [absDiff, Nat.dist]
  split_ifs with hlt
  · rw [lt_iff] at hlt
    rw [toNat_sub_of_le (Nat.le_of_lt hlt)]
    omega
  · rw [lt_iff] at hlt
    rw [toNat_sub_of_le (Nat.le_of_not_lt hlt)]
    omega

lemma dist_mul_self_le {n : ℕ} (h : n ≤ 100) : Nat.dist n 83 * Nat.dist n 83 ≤ 83 * 83 := by
  have hle : Nat.dist n 83 ≤ 83 := by
    rw [Nat.dist]
    omega
  exact Nat.mul_le_mul hle hle

lemma toNat_peakedAt {amount : U256} (h : amount.toNat ≤ 100) :
    (peakedAt 83#256 amount).toNat = 10000 - Nat.dist amount.toNat 83 * Nat.dist amount.toNat 83 := by
  have hdist : (absDiff amount 83#256).toNat = Nat.dist amount.toNat 83 := toNat_absDiff_dist _ _
  have hsquare := dist_mul_self_le h
  rw [peakedAt, toNat_saturatingSub, toNat_mul_of_lt (by rw [hdist]; omega), hdist]
  rfl

lemma unimodalProfit_offCentre : offCentreSearch.UnimodalProfit (peakedAt 83#256) 83#256 := by
  have hless : ∀ {x y : U256}, x.toNat ≤ 100 → y.toNat ≤ 100 →
      Nat.dist y.toNat 83 < Nat.dist x.toNat 83 → peakedAt 83#256 x < peakedAt 83#256 y := by
    intro x y hx hy hdist
    have hsquare := Nat.mul_self_lt_mul_self hdist
    have hbound := dist_mul_self_le hx
    rw [lt_iff, toNat_peakedAt hx, toNat_peakedAt hy]
    omega
  refine ⟨⟨rfl, by simp [offCentreSearch]⟩, ⟨by decide, by decide, ?_, ?_⟩, ?_⟩
  · intro x y hx hxy hy
    rw [lt_iff] at hxy
    rw [le_iff, show (83#256).toNat = 83 from rfl] at hy
    refine hless (by omega) (by omega) ?_
    rw [Nat.dist, Nat.dist]
    omega
  · intro x y hx hxy hy
    rw [lt_iff] at hxy
    rw [le_iff, show (83#256).toNat = 83 from rfl] at hx
    rw [le_iff, show offCentreSearch.high.toNat = 100 from rfl] at hy
    refine hless (by omega) (by omega) ?_
    rw [Nat.dist, Nat.dist]
    omega
  · intro amount hamount hzero
    have hle := le_iff.mp hamount.2
    rw [show offCentreSearch.high.toNat = 100 from rfl] at hle
    have hvalue := toNat_peakedAt hle
    rw [hzero] at hvalue
    have hbound := dist_mul_self_le hle
    rw [show (0 : U256).toNat = 0 from rfl] at hvalue
    omega

/-- Without the seed the points start in the golden ratio. -/
def plainSearch : SizeSearch := { offCentreSearch with warm := [] }

/-- A profit that grows with the size. -/
def risingSearch : SizeSearch where
  objective := fun _ amount => amount + 1
  low := 0
  high := 20#256
  maxIterations := 16
  warm := []

lemma unimodalProfit_rising : risingSearch.UnimodalProfit (· + 1) 20#256 := by
  have hhigh : risingSearch.high.toNat = 20 := rfl
  have hval : ∀ {x : U256}, x ≤ risingSearch.high → (x + 1).toNat = x.toNat + 1 := by
    intro x hx
    rw [le_iff] at hx
    exact toNat_add_of_lt (by rw [show (1 : U256).toNat = 1 from rfl]; omega)
  refine ⟨⟨rfl, by simp [risingSearch]⟩, ⟨by decide, by decide, ?_, ?_⟩, ?_⟩
  · intro x y hx hxy hy
    have hlt := lt_iff.mp hxy
    have hle : y ≤ risingSearch.high := hy
    rw [lt_iff, hval hle, hval (Std.le_trans (Std.le_of_lt hxy) hle)]
    omega
  · intro x y hx hxy hy
    have hlt := lt_iff.mp hxy
    rw [le_iff, show (20#256).toNat = 20 from rfl] at hx
    rw [le_iff] at hy
    omega
  · intro amount hamount hzero
    have hvalue := hval hamount.2
    rw [hzero, show (0 : U256).toNat = 0 from rfl] at hvalue
    omega

/-- The plain search narrows its bracket around the peak; the rising one converges on it. -/
theorem findsPeak_of_pointsApart_plain :
    plainSearch.FindsPeak 83#256 ∧ risingSearch.FindsPeak 20#256 ∧
      ∃ n s asked, risingSearch.Head n s asked ∧ s.Converged := by
  have hplain : plainSearch.PointsApart := by
    have htrace : ∀ s ∈ plainSearch.trace plainSearch.iterations plainSearch.start.1 plainSearch.start.2,
        ¬ s.Converged → s.left < s.right := by
      decide +kernel
    exact fun n s asked hhead => htrace s (mem_trace_iff.mpr ⟨n + 1, asked, hhead⟩)
  have hrising : risingSearch.PointsApart := by
    have htrace : ∀ s ∈ risingSearch.trace risingSearch.iterations risingSearch.start.1
        risingSearch.start.2, ¬ s.Converged → s.left < s.right := by
      decide +kernel
    exact fun n s asked hhead => htrace s (mem_trace_iff.mpr ⟨n + 1, asked, hhead⟩)
  have hprofit : plainSearch.UnimodalProfit (peakedAt 83#256) 83#256 :=
    { unimodalProfit_offCentre with pure := ⟨rfl, by simp [plainSearch]⟩ }
  refine ⟨findsPeak_of_pointsApart plainSearch _ _ (by decide) hprofit hplain,
    findsPeak_of_pointsApart risingSearch _ _ (by decide) unimodalProfit_rising hrising, ?_⟩
  have hconverged : ∃ s ∈ risingSearch.trace risingSearch.iterations risingSearch.start.1
      risingSearch.start.2, s.Converged := by
    decide +kernel
  obtain ⟨s, hs, hconv⟩ := hconverged
  obtain ⟨n, asked, hhead⟩ := mem_trace_iff.mp hs
  exact ⟨n, s, asked, hhead, hconv⟩

/-- After two turns the bracket is `[100, 100]`, and the search returns `74`. -/
theorem offCentreSearch_misses :
    offCentreSearch.low < offCentreSearch.high ∧
      offCentreSearch.UnimodalProfit (peakedAt 83#256) 83#256 ∧
      ∃ n s asked, offCentreSearch.Head n s asked ∧ ¬ s.Brackets 83#256 ∧ s.Converged ∧
        s.tolerance < absDiff offCentreSearch.result 83#256 := by
  have hstart : offCentreSearch.Head 16 offCentreSearch.start.1 offCentreSearch.start.2 := .start
  have hfirst := hstart.turn (by decide) rfl
  have hsecond := hfirst.turn (by decide) rfl
  refine ⟨by decide, unimodalProfit_offCentre, _, _, _, hsecond, ?_, by decide, by decide +kernel⟩
  intro hpeak
  exact absurd (show (100#256 : U256) ≤ 83#256 from hpeak.1) (by decide)

end SizeSearch

end PolygonArb

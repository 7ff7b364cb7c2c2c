import PolygonArb.Pipeline.TickWaves

/-!
# Waves through the tick lens

The tick lens answers a word with the ticks in it, so a wave is one batch.  As for the waves of `TickWaves`, the
ticks that the replies show are stored whatever else is missing.  The first wave counts the pools it could not
read in full and notes them for Algebra (`lensStage_eq`); the second one does neither
(`enrichV3TickLensOnly_eq`).
-/

namespace PolygonArb

open Word ByteFormat

/-- The spans of a batch of words, with the answers to it. -/
structure LensWave where
  spans : List (Span PoolIndex)
  results : List (Option (List Byte))

namespace LensWave

variable (abi : TickAbi) (wave : LensWave) (i : PoolIndex)

/-- The ticks shown for each pool that any are shown for. -/
def groups : List (PoolIndex × List V3Tick) :=
  wave.spans.filterMap fun span =>
    if lensTicks abi wave.results span = [] then none else some (span.info, lensTicks abi wave.results span)

/-- No reply has a tick of the slot. -/
def ShowsNothing : Prop := i ∉ (wave.groups abi).map Prod.fst

/-- Every word of every pool was answered. -/
def Complete : Prop := ∀ span ∈ wave.spans, lensComplete abi wave.results span = true

/-- A word of the slot was not answered. -/
def WordGap : Prop := ∃ span ∈ wave.spans, span.info = i ∧ lensComplete abi wave.results span = false

/-- The slot was asked for, and every word of it was answered and has no tick. -/
structure ProvesEmpty : Prop where
  asked : ∃ span ∈ wave.spans, span.info = i
  words : ∀ span ∈ wave.spans, span.info = i → lensComplete abi wave.results span = true
  ticks : ∀ span ∈ wave.spans, span.info = i → lensTicks abi wave.results span = []

variable {abi wave i}

lemma showsNothing_iff :
    wave.ShowsNothing abi i ↔ ∀ span ∈ wave.spans, span.info = i → lensTicks abi wave.results span = [] := by
  rw [ShowsNothing, groups, List.mem_map]
  constructor
  · intro h span hspan hi
    by_contra hticks
    exact h ⟨_, List.mem_filterMap.mpr ⟨span, hspan, if_neg hticks⟩, hi⟩
  · rintro h ⟨group, hgroup, hi⟩
    rcases List.mem_filterMap.mp hgroup with ⟨span, hspan, hmade⟩
    split_ifs at hmade with hticks
    cases hmade
    exact hticks (h span hspan hi)

lemma provesEmpty_iff (hasked : ∃ span ∈ wave.spans, span.info = i) :
    wave.ProvesEmpty abi i ↔ wave.ShowsNothing abi i ∧ ¬wave.WordGap abi i := by
  rw [showsNothing_iff]
  constructor
  · intro h
    refine ⟨h.ticks, ?_⟩
    rintro ⟨span, hspan, hi, hgap⟩
    rw [h.words span hspan hi] at hgap
    cases hgap
  · rintro ⟨hticks, hwords⟩
    refine ⟨hasked, fun span hspan hi => ?_, hticks⟩
    by_contra hgap
    exact hwords ⟨span, hspan, hi, Bool.eq_false_iff.mpr hgap⟩

lemma groups_ne_nil : ∀ group ∈ wave.groups abi, group.2 ≠ [] := by
  intro group hgroup
  rcases List.mem_filterMap.mp hgroup with ⟨span, -, hmade⟩
  split_ifs at hmade with hticks
  cases hmade
  exact hticks

/-- Replies that are not there show nothing. -/
lemma groups_of_no_results (h : wave.results = []) : wave.groups abi = [] := by
  rw [groups, List.filterMap_eq_nil_iff]
  intro span _
  rw [if_pos]
  rw [lensTicks, h]
  simp [lensWord]

/-- A pool that nothing is shown for is not counted. -/
lemma length_groups_lt (hasked : ∃ span ∈ wave.spans, span.info = i) (h : wave.ShowsNothing abi i) :
    (wave.groups abi).length < wave.spans.length := by
  rcases hasked with ⟨span, hspan, hi⟩
  refine lt_of_le_of_ne (List.length_filterMap_le _ _) fun hlen => ?_
  rw [groups, List.length_filterMap_eq_countP, List.countP_eq_length] at hlen
  have hsome := hlen span hspan
  rw [if_pos (showsNothing_iff.mp h span hspan hi)] at hsome
  cases hsome

end LensWave

/-- The wave over the pools. -/
def lensWave (abi : TickAbi) (rpc : Multicall) (arena : StateArena) (pools : List Address) (wordRange : ℤ) :
    LensWave :=
  ⟨layOut (lensRequests abi arena wordRange pools) 0, rpc.answers (batch (lensRequests abi arena wordRange pools))⟩

section Stage

variable {abi : TickAbi} {rpc : Multicall} {arena : StateArena} {pools : List Address} {wordRange : ℤ}
  {algebraPools algebraIntegralPools : Finset Address}

/-- The ticks of one span, as a group if there are any. -/
def spanGroup (abi : TickAbi) (results : List (Option (List Byte))) (span : Span PoolIndex) :
    List (PoolIndex × List V3Tick) :=
  if lensTicks abi results span = [] then [] else [(span.info, lensTicks abi results span)]

lemma lensSpan_eq (results : List (Option (List Byte))) (stage : LensStage) (span : Span PoolIndex) :
    (lensSpan abi wordRange results stage span).arena =
        (storeGroups .v3 (spanGroup abi results span) stage.arena).1 ∧
      (lensSpan abi wordRange results stage span).updated =
        stage.updated + (storeGroups .v3 (spanGroup abi results span) stage.arena).2 ∧
      (lensSpan abi wordRange results stage span).rpcFailed = stage.rpcFailed ∧
      ((lensSpan abi wordRange results stage span).incompletePools = 0 ↔
        stage.incompletePools = 0 ∧ lensComplete abi results span = true) ∧
      (lensComplete abi results span = true →
        (lensSpan abi wordRange results stage span).fallback = stage.fallback) := by
  rw [lensSpan, spanGroup]
  cases hcomplete : lensComplete abi results span with
  | false =>
      by_cases hticks : lensTicks abi results span = []
      · simp [hticks, storeGroups]
      · simp [hticks, storeGroups]
  | true =>
      by_cases hticks : lensTicks abi results span = []
      · simp [hticks, storeGroups]
      · simp [hticks, storeGroups]

/-- The answers of all pools: what is stored, what is counted, and that nothing is noted if nothing is missing. -/
lemma foldl_lensSpan (results : List (Option (List Byte))) (spans : List (Span PoolIndex)) (stage : LensStage) :
    (spans.foldl (lensSpan abi wordRange results) stage).arena =
        (storeGroups .v3 (LensWave.groups abi ⟨spans, results⟩) stage.arena).1 ∧
      (spans.foldl (lensSpan abi wordRange results) stage).updated =
        stage.updated + (storeGroups .v3 (LensWave.groups abi ⟨spans, results⟩) stage.arena).2 ∧
      (spans.foldl (lensSpan abi wordRange results) stage).rpcFailed = stage.rpcFailed ∧
      ((spans.foldl (lensSpan abi wordRange results) stage).incompletePools = 0 ↔
        stage.incompletePools = 0 ∧ LensWave.Complete abi ⟨spans, results⟩) ∧
      (LensWave.Complete abi ⟨spans, results⟩ →
        (spans.foldl (lensSpan abi wordRange results) stage).fallback = stage.fallback) := by
  induction spans generalizing stage with
  | nil => simp [LensWave.groups, LensWave.Complete, storeGroups]
  | cons span spans ih =>
      rcases ih (lensSpan abi wordRange results stage span) with ⟨harena, hupdated, hrpc, hincomplete, hfallback⟩
      rcases @lensSpan_eq abi wordRange results stage span with
        ⟨harena', hupdated', hrpc', hincomplete', hfallback'⟩
      have hgroups : LensWave.groups abi ⟨span :: spans, results⟩ =
          spanGroup abi results span ++ LensWave.groups abi ⟨spans, results⟩ := by
        rw [LensWave.groups, LensWave.groups, List.filterMap_cons, spanGroup]
        split_ifs with hticks
        · rfl
        · rfl
      have hcomplete : LensWave.Complete abi ⟨span :: spans, results⟩ ↔
          lensComplete abi results span = true ∧ LensWave.Complete abi ⟨spans, results⟩ := by
        simp [LensWave.Complete]
      rw [List.foldl_cons, hgroups, hcomplete, storeGroups_append]
      rw [harena'] at harena hupdated
      refine ⟨harena, ?_, hrpc.trans hrpc', ?_, ?_⟩
      · rw [hupdated, hupdated', Nat.add_assoc]
      · rw [hincomplete, hincomplete', and_assoc]
      · rintro ⟨hthis, hrest⟩
        rw [hfallback hrest, hfallback' hthis]

lemma results_lensWave : (lensWave abi rpc arena pools wordRange).results =
    rpc.answers (batch (lensRequests abi arena wordRange pools)) := rfl

/-- Without words there is nothing to show and nothing to miss. -/
lemma lensWave_of_no_words (h : batch (lensRequests abi arena wordRange pools) = []) :
    (lensWave abi rpc arena pools wordRange).groups abi = [] ∧
      (lensWave abi rpc arena pools wordRange).Complete abi := by
  constructor
  · refine LensWave.groups_of_no_results ?_
    rw [results_lensWave, h, answers_nil]
  · intro span hspan
    rcases (exists_of_forall₂ (covers_batch _)).1 span hspan with ⟨request, hrequest, -, hstop, -⟩
    have hnone : request.2 = [] := List.flatMap_eq_nil_iff.mp h request hrequest
    rw [lensComplete, hstop, hnone, List.length_nil, Nat.add_zero, Nat.sub_self]
    rfl

/-- The first wave: what it stores and counts, and when it raises no flag. -/
theorem lensStage_eq :
    (lensStage abi rpc arena pools wordRange algebraPools algebraIntegralPools).arena =
        (storeGroups .v3 ((lensWave abi rpc arena (pools.filter fun pool => pool ∉ algebraPools)
          wordRange).groups abi) arena).1 ∧
      (lensStage abi rpc arena pools wordRange algebraPools algebraIntegralPools).updated =
        (storeGroups .v3 ((lensWave abi rpc arena (pools.filter fun pool => pool ∉ algebraPools)
          wordRange).groups abi) arena).2 ∧
      ((lensStage abi rpc arena pools wordRange algebraPools algebraIntegralPools).rpcFailed = false ∧
          (lensStage abi rpc arena pools wordRange algebraPools algebraIntegralPools).incompletePools = 0 ↔
        ¬rpc.Failed (batch (lensRequests abi arena wordRange (pools.filter fun pool => pool ∉ algebraPools))) ∧
          (lensWave abi rpc arena (pools.filter fun pool => pool ∉ algebraPools) wordRange).Complete abi) ∧
      (¬rpc.Failed (batch (lensRequests abi arena wordRange (pools.filter fun pool => pool ∉ algebraPools))) →
        (lensWave abi rpc arena (pools.filter fun pool => pool ∉ algebraPools) wordRange).Complete abi →
        (lensStage abi rpc arena pools wordRange algebraPools algebraIntegralPools).fallback = []) := by
  rw [lensStage]
  dsimp only
  generalize pools.filter (fun pool => pool ∉ algebraPools) = lensPools
  by_cases hnone : batch (lensRequests abi arena wordRange lensPools) = []
  · rcases @lensWave_of_no_words abi rpc arena lensPools wordRange hnone with ⟨hgroups, hcomplete⟩
    rw [if_pos hnone, hgroups, hnone]
    exact ⟨rfl, rfl, by simp [Multicall.Failed, hcomplete], fun _ _ => rfl⟩
  · rw [if_neg hnone]
    cases hrun : rpc.run (batch (lensRequests abi arena wordRange lensPools)) with
    | error e =>
        have hgroups : (lensWave abi rpc arena lensPools wordRange).groups abi = [] :=
          LensWave.groups_of_no_results (answers_of_error hrun)
        rw [hgroups]
        refine ⟨rfl, rfl, by simp [Multicall.Failed, hnone, hrun], fun hok => ?_⟩
        exact absurd ⟨hnone, e, hrun⟩ hok
    | ok results =>
        have hwave : lensWave abi rpc arena lensPools wordRange =
            ⟨layOut (lensRequests abi arena wordRange lensPools) 0, results⟩ := by
          rw [lensWave, answers_of_ok hrun]
        rcases @foldl_lensSpan abi wordRange results (layOut (lensRequests abi arena wordRange lensPools) 0)
          ⟨arena, 0, 0, 0, [], false⟩ with ⟨harena, hupdated, hrpc, hincomplete, hfallback⟩
        dsimp only
        rw [hwave]
        refine ⟨harena, ?_, ?_, fun _ => hfallback⟩
        · rw [hupdated, Nat.zero_add]
        · rw [hrpc, hincomplete]
          simp [not_failed_of_ok hrun]

/-- The second wave stores what it is shown. -/
theorem enrichV3TickLensOnly_eq : enrichV3TickLensOnly abi rpc arena pools wordRange =
    storeGroups .v3 ((lensWave abi rpc arena pools wordRange).groups abi) arena := by
  rw [enrichV3TickLensOnly]
  by_cases hnone : batch (lensRequests abi arena wordRange pools) = []
  · rw [if_pos hnone, (lensWave_of_no_words hnone).1]
    rfl
  · rw [if_neg hnone]
    cases hrun : rpc.run (batch (lensRequests abi arena wordRange pools)) with
    | error e =>
        have hgroups : (lensWave abi rpc arena pools wordRange).groups abi = [] :=
          LensWave.groups_of_no_results (answers_of_error hrun)
        rw [hgroups]
        rfl
    | ok results =>
        rw [lensWave, answers_of_ok hrun]
        rfl

end Stage

end PolygonArb

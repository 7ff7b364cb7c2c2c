import PolygonArb.Pipeline.TickDepth
import PolygonArb.Pipeline.V3Pass

/-!
# The long cooldown of V3 pools

Pools that the first waves of a pass leave without ticks are read once more in a wide window.  The long cooldown is
armed for exactly the pools that the pass has seen empty (`V3Pass.armsEmpty_iff`): the second waves raise no flag
at all, so their failure looks like an empty pool, and so do a word and a tick of an Algebra pool without an answer.
-/

namespace PolygonArb

open Word ByteFormat IndexTable

section Basics

variable {arena : StateArena} {pool : Address} {i : PoolIndex}

/-- A pool without ticks, by its slot. -/
lemma any_v3Pool_iff : ((v3Pool arena pool).any fun found => found.2.ticks.isEmpty) = true ↔
    ∃ i, arena.inner.addressToPool pool = some i ∧ Tickless .v3 arena i := by
  rw [Option.any_eq_true]
  constructor
  · rintro ⟨found, hfound, hticks⟩
    rcases Option.bind_eq_some_iff.mp hfound with ⟨i, hslot, hstate⟩
    rcases Option.map_eq_some_iff.mp hstate with ⟨s, hs, rfl⟩
    exact ⟨i, hslot, s, hs, List.isEmpty_iff.mp hticks⟩
  · rintro ⟨i, hslot, s, hs, hticks⟩
    refine ⟨(i, s), ?_, List.isEmpty_iff.mpr hticks⟩
    rw [v3Pool, hslot, Option.bind_some, hs]
    rfl

lemma mem_stillTicklessV3 {pools : List Address} : pool ∈ stillTicklessV3 arena pools ↔
    pool ∈ pools ∧ ∃ i, arena.inner.addressToPool pool = some i ∧ Tickless .v3 arena i := by
  rw [stillTicklessV3, List.mem_filter, any_v3Pool_iff]

lemma v3Pool_of_tickless (hslot : arena.inner.addressToPool pool = some i) (h : Tickless .v3 arena i) :
    ∃ s, v3Pool arena pool = some (i, s) := by
  rcases h with ⟨s, hs, -⟩
  refine ⟨s, ?_⟩
  rw [v3Pool, hslot, Option.bind_some, hs]
  rfl

variable {abi : TickAbi} {order : TieOrder} {wordRange : ℤ} {pools : List Address}

/-- A pool of the batch has its span. -/
lemma asked_lensWave (rpc : Multicall) (hpool : pool ∈ pools)
    (hslot : arena.inner.addressToPool pool = some i) (h : Tickless .v3 arena i) :
    ∃ span ∈ (lensWave abi rpc arena pools wordRange).spans, span.info = i := by
  rcases v3Pool_of_tickless hslot h with ⟨s, hs⟩
  have hmade : lensRequest abi arena wordRange pool ≠ none := by simp [lensRequest, hs]
  rcases Option.ne_none_iff_exists'.mp hmade with ⟨request, hrequest⟩
  rcases (exists_of_forall₂ (covers_batch (lensRequests abi arena wordRange pools))).2 request
    (List.mem_filterMap.mpr ⟨pool, hpool, hrequest⟩) with ⟨span, hspan, hinfo, -⟩
  refine ⟨span, hspan, ?_⟩
  rw [lensRequest, hs] at hrequest
  cases hrequest
  exact hinfo

/-- A target that there is room for has its window. -/
lemma asked_algebraWave (rpc : BitmapRpc) {targets : List AlgebraTarget} {target : AlgebraTarget}
    (htarget : target ∈ targets) (hcount : targets.length ≤ maxAlgebraTickPools) :
    ∃ window ∈ (algebraWave abi order rpc arena targets).windows, window.owner = (target.pool, target.idx) := by
  have hranked := (@mem_algebraWaveTargets arena order targets target hcount).mpr htarget
  rcases (exists_of_forall₂ (covers_batch (algebraRequests abi (algebraWaveTargets order arena targets)))).2 _
    (List.mem_map_of_mem hranked) with ⟨span, hspan, hinfo, -⟩
  refine ⟨_, List.mem_map_of_mem hspan, ?_⟩
  rw [algebraWindow, hinfo]

/-- Nothing is asked, nothing is shown. -/
lemma showsNothing_lensWave_nil (rpc : Multicall) :
    (lensWave abi rpc arena [] wordRange).ShowsNothing abi i :=
  List.not_mem_nil

lemma algebraWave_nil (rpc : BitmapRpc) : algebraWaveBatch abi order arena [] = [] ∧
    queuedReads (algebraWaveWindows abi order rpc arena []) = [] := by
  have htargets : algebraWaveTargets order arena [] = [] := by
    rw [algebraWaveTargets, algebraRanked, (perm_byLiquidity order _ []).eq_nil, List.take_nil]
  have hbatch : algebraWaveBatch abi order arena [] = [] := by
    rw [algebraWaveBatch, htargets]
    rfl
  exact ⟨hbatch, queued_algebraWave_of_no_words (by rw [hbatch, answers_nil])⟩

lemma showsNothing_algebraWave_nil (rpc : BitmapRpc) (integralPools : Finset Address) :
    (algebraWave abi order rpc arena []).ShowsNothing (algebraReader abi integralPools) i := by
  rw [Wave.ShowsNothing, entries_algebraWave_of_nil (algebraWave_nil rpc).2]
  rfl

/-- The Algebra wave shows ticks of its own targets only. -/
lemma keys_algebraWave {rpc : BitmapRpc} {targets : List AlgebraTarget} {integralPools : Finset Address} :
    ∀ k ∈ ((algebraWave abi order rpc arena targets).entries (algebraReader abi integralPools)).map Prod.fst,
      k ∈ targets.map AlgebraTarget.idx := by
  intro k hk
  rcases List.mem_map.mp hk with ⟨e, he, rfl⟩
  rcases List.mem_filterMap.mp he with ⟨⟨call, bytes⟩, hpair, hentry⟩
  rw [((algebraReader abi integralPools).slot_entry hentry).1]
  have hcall := (List.of_mem_zip hpair).1
  rcases List.mem_flatMap.mp (List.mem_of_mem_take hcall) with ⟨window, hwindow, hin⟩
  rcases List.mem_map.mp hin with ⟨t, -, rfl⟩
  rcases mem_algebraWaveWindows hwindow with ⟨target, htarget, howner, -⟩
  refine List.mem_map.mpr ⟨target, htarget, ?_⟩
  dsimp only
  rw [howner]
  rfl

end Basics

namespace V3Pass

variable {pass : V3Pass} {pool : Address} {i : PoolIndex} {allowWiden : Bool}

/-! ### What the second waves are asked -/

/-- The pools that the narrow replies leave without ticks. -/
lemma stillTicklessV3_narrowArena : stillTicklessV3 pass.narrowArena pass.pools =
    (stillTicklessV3 pass.arena pass.pools).filter fun pool =>
      (v3Pool pass.arena pool).all fun found => pass.NarrowNothing found.1 := by
  rw [stillTicklessV3, stillTicklessV3, List.filter_filter]
  refine List.filter_congr fun pool _ => ?_
  rw [Bool.eq_iff_iff, Bool.and_eq_true, any_v3Pool_iff, any_v3Pool_iff, sameShape_narrowArena.slots,
    Option.all_eq_true]
  simp only [decide_eq_true_eq]
  constructor
  · rintro ⟨i, hslot, hstill⟩
    rcases tickless_narrowArena.mp hstill with ⟨hbefore, hnothing⟩
    refine ⟨fun found hfound => ?_, i, hslot, hbefore⟩
    rcases v3Pool_of_tickless hslot hbefore with ⟨s, hs⟩
    rw [hs, Option.some_inj] at hfound
    subst hfound
    exact hnothing
  · rintro ⟨hnothing, i, hslot, hbefore⟩
    rcases v3Pool_of_tickless hslot hbefore with ⟨s, hs⟩
    exact ⟨i, hslot, tickless_narrowArena.mpr ⟨hbefore, hnothing (i, s) hs⟩⟩

lemma wideTargets_eq : v3WideTargets pass.order pass.narrowArena pass.pools = pass.wideTargets := by
  have hkey : (fun pool => ((v3Pool pass.narrowArena pool).map fun found => found.2.liquidity).getD 0) =
      fun pool => ((v3Pool pass.arena pool).map fun found => found.2.liquidity).getD 0 := by
    funext pool
    rw [v3Pool_map_congr sameShape_narrowArena fun _ _ => rfl]
  rw [v3WideTargets, hkey, stillTicklessV3_narrowArena, wideTargets]

/-- A labelled pool is one of the targets of its wave, by its slot. -/
lemma exists_algebraTarget (hpool : pool ∈ pass.pools) (hlabel : pool ∈ pass.algebraPools)
    (hslot : pass.arena.inner.addressToPool pool = some i) (h : Tickless .v3 pass.arena i) :
    ∃ target ∈ pass.algebraTargets, target.idx = i := by
  rcases v3Pool_of_tickless hslot h with ⟨s, hs⟩
  have hmade : algebraTarget pass.arena pass.wordRange pool ≠ none := by simp [algebraTarget, hs]
  rcases Option.ne_none_iff_exists'.mp hmade with ⟨made, hmade⟩
  have hidx : made.idx = i := by
    rw [algebraTarget, hs] at hmade
    cases hmade
    rfl
  have hlabelled : pool ∈ pass.pools.filter fun pool => pool ∈ pass.algebraPools :=
    List.mem_filter.mpr ⟨hpool, decide_eq_true hlabel⟩
  rcases exists_mem_eraseDupsBy AlgebraTarget.idx (List.mem_append_left []
    (List.mem_filterMap.mpr ⟨pool, hlabelled, hmade⟩)) with ⟨target, htarget, hkey⟩
  exact ⟨target, htarget, hkey.trans hidx⟩

/-- Nothing to read, in either first wave: the pass ends early. -/
def Idle (pass : V3Pass) : Prop :=
  batch (lensRequests pass.abi pass.arena pass.wordRange pass.lensPools) = [] ∧
    (pass.pools.filter fun pool => pool ∈ pass.algebraPools).filterMap
      (algebraTarget pass.arena pass.wordRange) = []

/-- The words of a pool without ticks are asked for. -/
lemma not_idle (hpool : pool ∈ pass.pools) (hslot : pass.arena.inner.addressToPool pool = some i)
    (h : Tickless .v3 pass.arena i) : ¬pass.Idle := by
  rcases v3Pool_of_tickless hslot h with ⟨s, hs⟩
  rintro ⟨hlens, halgebra⟩
  by_cases hlabel : pool ∈ pass.algebraPools
  · rw [List.filterMap_eq_nil_iff] at halgebra
    have hnone := halgebra pool (List.mem_filter.mpr ⟨hpool, decide_eq_true hlabel⟩)
    rw [algebraTarget, hs] at hnone
    cases hnone
  · have hmem : pool ∈ pass.lensPools := List.mem_filter.mpr ⟨hpool, decide_eq_true hlabel⟩
    have hnone := List.flatMap_eq_nil_iff.mp hlens _
      (List.mem_filterMap.mpr ⟨pool, hmem, by rw [lensRequest, hs]; rfl⟩)
    rw [List.map_eq_nil_iff, windowWords_eq, List.map_eq_nil_iff, List.range_eq_nil] at hnone
    omega

/-- A pool that the narrow replies do not show is one that is not updated. -/
lemma stored_lt_pools (hpool : pool ∈ pass.pools) (hslot : pass.arena.inner.addressToPool pool = some i)
    (h : Tickless .v3 pass.arena i) (hnothing : pass.NarrowNothing i) :
    (storeGroups .v3 (pass.lens.groups pass.abi) pass.arena).2 +
      (storeGroups .v3 (groupTicks (pass.algebra.entries pass.reader)) pass.lensArena).2 < pass.pools.length := by
  have hsplit := @List.length_eq_length_filter_add _ pass.pools fun pool => decide (pool ∈ pass.algebraPools)
  have hothers : (pass.pools.filter fun pool => !decide (pool ∈ pass.algebraPools)) = pass.lensPools := by
    rw [lensPools]
    simp only [decide_not]
  rw [hothers] at hsplit
  have hlens := @stored_storeGroups_le .v3 (pass.lens.groups pass.abi) pass.arena
  have hspans : pass.lens.spans.length ≤ pass.lensPools.length := by
    have hinfo := congrArg List.length
      (map_info_layOut (lensRequests pass.abi pass.arena pass.wordRange pass.lensPools) 0)
    rw [List.length_map, List.length_map] at hinfo
    exact hinfo.le.trans (List.length_filterMap_le _ _)
  have htargets := @length_algebraTargets_le pass
  have hlength : (pass.algebraTargets.map AlgebraTarget.idx).length = pass.algebraTargets.length :=
    List.length_map _
  have hkeys : ∀ k ∈ (pass.algebra.entries pass.reader).map Prod.fst,
      k ∈ pass.algebraTargets.map AlgebraTarget.idx := keys_algebraWave
  by_cases hlabel : pool ∈ pass.algebraPools
  · have hgroups : (pass.lens.groups pass.abi).length ≤ pass.lens.spans.length := List.length_filterMap_le _ _
    rcases exists_algebraTarget hpool hlabel hslot h with ⟨target, htarget, hidx⟩
    have halgebra := @stored_lt .v3 pass.lensArena i _ _ hkeys
      (List.mem_map.mpr ⟨target, htarget, hidx⟩) hnothing.2
    omega
  · have hmem : pool ∈ pass.lensPools := List.mem_filter.mpr ⟨hpool, decide_eq_true hlabel⟩
    have hgroups : (pass.lens.groups pass.abi).length < pass.lens.spans.length :=
      LensWave.length_groups_lt (asked_lensWave pass.rpc.lens hmem hslot h) hnothing.1
    have halgebra := @stored_le .v3 pass.lensArena _ _ hkeys
    omega

/-! ### The second waves -/

/-- The second waves, over any targets: they ask what they would ask of the arena before the pass. -/
lemma tickless_widen (targets : List Address) (range : ℤ) :
    Tickless .v3 (v3Widen pass.abi pass.order pass.rpc.wideLens pass.rpc.wideAlgebra pass.narrowArena targets range
        pass.algebraPools pass.algebraIntegralPools (pass.algebraTargets.map AlgebraTarget.pool)).arena i ↔
      (Tickless .v3 pass.arena i ∧ pass.NarrowNothing i) ∧
        (lensWave pass.abi pass.rpc.wideLens pass.arena (targets.filter fun pool => ¬pass.Labelled pool)
          range).ShowsNothing pass.abi i ∧
        (algebraWave pass.abi pass.order pass.rpc.wideAlgebra pass.arena
          ((targets.filter fun pool => pass.Labelled pool).filterMap fun pool =>
            (pass.arena.inner.addressToPool pool).bind fun idx =>
              algebraFallbackTarget pass.arena idx range)).ShowsNothing pass.reader i := by
  have hnarrow := @sameShape_narrowArena pass
  have hlabelled : (targets.filter fun pool => (pool ∈ pass.algebraPools ∨ pool ∈ pass.algebraIntegralPools) ∨
        pool ∈ pass.algebraTargets.map AlgebraTarget.pool) = targets.filter fun pool => pass.Labelled pool := by
    refine List.filter_congr fun pool _ => ?_
    rw [decide_eq_decide]
    constructor
    · rintro (hlabel | htarget)
      · exact hlabel
      · rcases List.mem_map.mp htarget with ⟨target, hmem, rfl⟩
        exact Or.inl (mem_algebraTargets hmem).1
    · exact Or.inl
  have hchosen : (fun pool => (pass.narrowArena.inner.addressToPool pool).bind fun idx =>
        algebraFallbackTarget pass.narrowArena idx range) =
      fun pool => (pass.arena.inner.addressToPool pool).bind fun idx =>
        algebraFallbackTarget pass.arena idx range := by
    funext pool
    rw [hnarrow.slots]
    exact Option.bind_congr fun idx _ => algebraFallbackTarget_congr hnarrow idx
  rw [v3Widen]
  dsimp only
  rw [hlabelled, hchosen, enrichV3TickLensOnly_eq, enrichAlgebraTicks_eq.1, lensWave_congr hnarrow,
    algebraWave_congr (hnarrow.trans (sameShape_storeGroups overlayFits_narrowArena)),
    tickless_storeEntries (overlayFits_storeGroups overlayFits_narrowArena),
    tickless_storeGroups overlayFits_narrowArena LensWave.groups_ne_nil, tickless_narrowArena, and_assoc]
  rfl

/-- The pools of the second waves. -/
def chosen (pass : V3Pass) (allowWiden : Bool) : List Address :=
  if pass.lensStageOf.updated + pass.algebraStageOf.2.loaded < pass.pools.length ∧ allowWiden = true ∧
      pass.wordRange < 48 then
    v3WideTargets pass.order pass.algebraStageOf.1 pass.pools
  else []

def wideStageOf (pass : V3Pass) (allowWiden : Bool) : V3Wide :=
  v3Widen pass.abi pass.order pass.rpc.wideLens pass.rpc.wideAlgebra pass.algebraStageOf.1
    (pass.chosen allowWiden) (wideRange pass.wordRange) pass.algebraPools pass.algebraIntegralPools
    ((allAlgebra pass.arena pass.pools pass.wordRange pass.algebraPools pass.lensStageOf.fallback).map
      AlgebraTarget.pool)

/-! ### The decision -/

lemma not_armsEmpty_of_idle (h : pass.Idle) : ¬(pass.run allowWiden).ArmsEmpty pool := by
  rw [Idle, lensPools] at h
  rintro ⟨pools, harmed, -⟩
  rw [run, enrichV3Ticks, if_pos h] at harmed
  cases harmed

/-- The long cooldown is armed for what stays without ticks, if no first wave raised a flag. -/
lemma armsEmpty_run (h : ¬pass.Idle) : (pass.run allowWiden).ArmsEmpty pool ↔
    pool ∈ stillTicklessV3 (pass.wideStageOf allowWiden).arena pass.pools ∧ pass.NarrowClear ∧
      allowWiden = true ∧ (48 ≤ pass.wordRange ∨ pool ∈ pass.chosen allowWiden) := by
  have hcooldown : (pass.run allowWiden).cooldown =
      armCooldown (stillTicklessV3 (pass.wideStageOf allowWiden).arena pass.pools)
        (!(stillTicklessV3 (pass.wideStageOf allowWiden).arena pass.pools).isEmpty &&
          (pass.lensStageOf.rpcFailed || pass.algebraStageOf.2.rpcFailed ||
            decide (0 < pass.lensStageOf.incompletePools)))
        (decide (0 < pass.lensStageOf.incompletePools)) allowWiden
        fun pool => decide (48 ≤ pass.wordRange) || decide (pool ∈ pass.chosen allowWiden) := by
    rw [Idle, lensPools] at h
    rw [run, enrichV3Ticks, if_neg h]
    rfl
  rw [Hydration.ArmsEmpty, hcooldown, armCooldown_eq_empty, Bool.or_eq_true, decide_eq_true_eq,
    decide_eq_true_eq, ← flags_iff]
  refine and_congr_right fun hmem => and_congr_left fun _ => ?_
  have hsome : (stillTicklessV3 (pass.wideStageOf allowWiden).arena pass.pools).isEmpty = false := by
    rw [List.isEmpty_eq_false_iff]
    exact List.ne_nil_of_mem hmem
  rw [hsome]
  simp [and_assoc, and_comm]

lemma chosen_of_clear (hclear : pass.NarrowClear) : pass.chosen allowWiden =
    if (storeGroups .v3 (pass.lens.groups pass.abi) pass.arena).2 +
        (storeGroups .v3 (groupTicks (pass.algebra.entries pass.reader)) pass.lensArena).2 < pass.pools.length ∧
        allowWiden = true ∧ pass.wordRange < 48 then pass.wideTargets
    else [] := by
  rcases algebraStage_eq (fallback_of_clear hclear) with ⟨harena, hloaded, -⟩
  have hupdated : pass.lensStageOf.updated = (storeGroups .v3 (pass.lens.groups pass.abi) pass.arena).2 :=
    lensStage_eq.2.1
  rw [chosen, harena, hloaded, hupdated, wideTargets_eq]

/-- The second waves leave a pool without ticks if neither wave shows any. -/
lemma tickless_wideStageOf (hclear : pass.NarrowClear) :
    Tickless .v3 (pass.wideStageOf allowWiden).arena i ↔
      (Tickless .v3 pass.arena i ∧ pass.NarrowNothing i) ∧
        (lensWave pass.abi pass.rpc.wideLens pass.arena
          ((pass.chosen allowWiden).filter fun pool => ¬pass.Labelled pool)
            (wideRange pass.wordRange)).ShowsNothing pass.abi i ∧
        (algebraWave pass.abi pass.order pass.rpc.wideAlgebra pass.arena
          (((pass.chosen allowWiden).filter fun pool => pass.Labelled pool).filterMap fun pool =>
            (pass.arena.inner.addressToPool pool).bind fun idx =>
              algebraFallbackTarget pass.arena idx (wideRange pass.wordRange))).ShowsNothing pass.reader i := by
  rw [wideStageOf, (algebraStage_eq (fallback_of_clear hclear)).1, fallback_of_clear hclear, ← algebraTargets,
    tickless_widen]

lemma slots_wideStageOf (hclear : pass.NarrowClear) :
    (pass.wideStageOf allowWiden).arena.inner.addressToPool = pass.arena.inner.addressToPool := by
  rw [wideStageOf, (algebraStage_eq (fallback_of_clear hclear)).1, v3Widen]
  dsimp only
  rw [enrichV3TickLensOnly_eq, enrichAlgebraTicks_eq.1]
  exact tables_storeGroups.1.trans (tables_storeGroups.1.trans sameShape_narrowArena.slots)

/-- The long cooldown is armed for exactly the pools that are seen empty. -/
theorem armsEmpty_iff :
    (pass.run allowWiden).ArmsEmpty pool ↔ ∃ i, pass.SeenEmpty pool i allowWiden := by
  constructor
  · intro harmed
    have hbusy : ¬pass.Idle := fun hidle => not_armsEmpty_of_idle hidle harmed
    rcases (armsEmpty_run hbusy).mp harmed with ⟨hmem, hclear, hallow, hfull⟩
    rcases mem_stillTicklessV3.mp hmem with ⟨hpool, i, hslot, hstill⟩
    rw [slots_wideStageOf hclear] at hslot
    rcases (tickless_wideStageOf hclear).mp hstill with ⟨⟨hbefore, hnarrow⟩, hlens, halgebra⟩
    refine ⟨i, hpool, hallow, hslot, hclear, hbefore, hnarrow, fun hrange => ?_⟩
    rw [chosen_of_clear hclear,
      if_pos ⟨stored_lt_pools hpool hslot hbefore hnarrow, hallow, hrange⟩] at hfull hlens halgebra
    exact ⟨hfull.resolve_left (by omega), hlens, halgebra⟩
  · rintro ⟨i, hseen⟩
    rw [armsEmpty_run (not_idle hseen.listed hseen.slot hseen.tickless), mem_stillTicklessV3,
      slots_wideStageOf hseen.clear]
    rcases lt_or_ge pass.wordRange 48 with hrange | hrange
    · rcases hseen.wide hrange with ⟨hwide, hlens, halgebra⟩
      have hchosen : pass.chosen allowWiden = pass.wideTargets := by
        rw [chosen_of_clear hseen.clear, if_pos ⟨stored_lt_pools hseen.listed hseen.slot hseen.tickless hseen.narrow,
          hseen.widens, hrange⟩]
      refine ⟨⟨hseen.listed, i, hseen.slot, (tickless_wideStageOf hseen.clear).mpr ?_⟩, hseen.clear, hseen.widens, ?_⟩
      · rw [hchosen]
        exact ⟨⟨hseen.tickless, hseen.narrow⟩, hlens, halgebra⟩
      · rw [hchosen]
        exact Or.inr hwide
    · have hchosen : pass.chosen allowWiden = [] := by
        rw [chosen_of_clear hseen.clear, if_neg (by omega)]
      refine ⟨⟨hseen.listed, i, hseen.slot, (tickless_wideStageOf hseen.clear).mpr ?_⟩, hseen.clear, hseen.widens,
        Or.inl hrange⟩
      rw [hchosen]
      exact ⟨⟨hseen.tickless, hseen.narrow⟩, showsNothing_lensWave_nil _, showsNothing_algebraWave_nil _ _⟩

/-! ### What is proved -/

lemma length_wideAlgebraTargets_le : pass.wideAlgebraTargets.length ≤ maxAlgebraTickPools := by
  have hchosen : pass.wideTargets.length ≤ maxWideTickPools := List.length_take_le _ _
  have hlabelled := List.length_filter_le (fun pool => decide (pass.Labelled pool)) pass.wideTargets
  refine (List.length_filterMap_le _ _).trans (hlabelled.trans (hchosen.trans ?_))
  rw [maxWideTickPools, maxAlgebraTickPools]
  omega

lemma exists_wideAlgebraTarget (hwide : pool ∈ pass.wideTargets) (hlabel : pass.Labelled pool)
    (hslot : pass.arena.inner.addressToPool pool = some i) (h : Tickless .v3 pass.arena i) :
    ∃ target ∈ pass.wideAlgebraTargets, target.idx = i := by
  rcases h with ⟨s, hs, -⟩
  have hmem : pool ∈ pass.wideTargets.filter fun pool => pass.Labelled pool :=
    List.mem_filter.mpr ⟨hwide, decide_eq_true hlabel⟩
  refine ⟨⟨pool, i, s.tickSpacing, clTickBitmapCenterWord s.tick s.tickSpacing - wideRange pass.wordRange,
    clTickBitmapCenterWord s.tick s.tickSpacing + wideRange pass.wordRange⟩,
    List.mem_filterMap.mpr ⟨pool, hmem, ?_⟩, rfl⟩
  rw [hslot, Option.bind_some, algebraFallbackTarget, (pass.tables pool i).mp hslot, Option.bind_some, hs]
  rfl

/-- A slot of an Algebra wave with room for all its targets is asked for. -/
lemma asked_slot {rpc : BitmapRpc} {targets : List AlgebraTarget}
    (h : ∃ target ∈ targets, target.idx = i) (hcount : targets.length ≤ maxAlgebraTickPools) :
    ∃ window ∈ (algebraWave pass.abi pass.order rpc pass.arena targets).windows,
      pass.reader.slot window.owner = i := by
  rcases h with ⟨target, htarget, rfl⟩
  rcases asked_algebraWave rpc htarget hcount with ⟨window, hwindow, howner⟩
  refine ⟨window, hwindow, ?_⟩
  rw [howner]
  rfl

lemma lens_provesEmpty (h : pass.SeenEmpty pool i allowWiden) (hlabel : pool ∉ pass.algebraPools) :
    pass.lens.ProvesEmpty pass.abi i := by
  have hmem : pool ∈ pass.lensPools := List.mem_filter.mpr ⟨h.listed, decide_eq_true hlabel⟩
  have hasked : ∃ span ∈ pass.lens.spans, span.info = i := asked_lensWave pass.rpc.lens hmem h.slot h.tickless
  refine (LensWave.provesEmpty_iff hasked).mpr ⟨h.narrow.1, ?_⟩
  rintro ⟨span, hspan, -, hgap⟩
  rw [h.clear.lensWords span hspan] at hgap
  cases hgap

lemma algebra_provesEmpty_iff (h : pass.SeenEmpty pool i allowWiden) (hlabel : pool ∈ pass.algebraPools) :
    pass.algebra.ProvesEmpty pass.reader i ↔
      ¬pass.algebra.WordGap pass.reader i ∧ ¬pass.algebra.TickGap pass.reader i := by
  have hasked : ∃ window ∈ pass.algebra.windows, pass.reader.slot window.owner = i :=
    asked_slot (exists_algebraTarget h.listed hlabel h.slot h.tickless) h.clear.algebraPools
  rw [Wave.provesEmpty_iff hasked]
  exact and_iff_right h.narrow.2

lemma wide_provesEmpty_iff (h : pass.SeenEmpty pool i allowWiden) (hrange : pass.wordRange < 48) :
    (pass.Labelled pool → (pass.wideAlgebra.ProvesEmpty pass.reader i ↔
        ¬pass.wideAlgebra.WordGap pass.reader i ∧ ¬pass.wideAlgebra.TickGap pass.reader i)) ∧
      (¬pass.Labelled pool →
        (pass.wideLens.ProvesEmpty pass.abi i ↔ ¬pass.wideLens.WordGap pass.abi i)) := by
  rcases h.wide hrange with ⟨hwide, hlens, halgebra⟩
  constructor
  · intro hlabel
    have hasked : ∃ window ∈ pass.wideAlgebra.windows, pass.reader.slot window.owner = i :=
      asked_slot (exists_wideAlgebraTarget hwide hlabel h.slot h.tickless) length_wideAlgebraTargets_le
    rw [Wave.provesEmpty_iff hasked]
    exact and_iff_right halgebra
  · intro hlabel
    have hmem : pool ∈ pass.wideTargets.filter fun pool => ¬pass.Labelled pool :=
      List.mem_filter.mpr ⟨hwide, decide_eq_true hlabel⟩
    have hasked : ∃ span ∈ pass.wideLens.spans, span.info = i :=
      asked_lensWave pass.rpc.wideLens hmem h.slot h.tickless
    rw [LensWave.provesEmpty_iff hasked]
    exact and_iff_right hlens

/-- A pool that is seen empty is proved empty if and only if no read is missing without a flag. -/
lemma provedEmpty_iff (h : pass.SeenEmpty pool i allowWiden) :
    pass.ProvedEmpty pool i ↔ ¬pass.SilentGap pool i := by
  rw [ProvedEmpty, SilentGap, not_or, not_and, not_or, not_and, not_or]
  constructor
  · rintro ⟨halgebra, -, hwide⟩
    refine ⟨fun hlabel => (algebra_provesEmpty_iff h hlabel).mp (halgebra hlabel), fun hrange => ?_⟩
    rcases wide_provesEmpty_iff h hrange with ⟨hbitmaps, hlens⟩
    rw [not_and, not_and, not_or]
    exact ⟨fun hlabel => (hbitmaps hlabel).mp ((hwide hrange).1 hlabel),
      fun hlabel => (hlens hlabel).mp ((hwide hrange).2 hlabel)⟩
  · rintro ⟨halgebra, hwide⟩
    refine ⟨fun hlabel => (algebra_provesEmpty_iff h hlabel).mpr (halgebra hlabel),
      fun hlabel => lens_provesEmpty h hlabel, fun hrange => ?_⟩
    rcases wide_provesEmpty_iff h hrange with ⟨hbitmaps, hlens⟩
    have hnone := hwide hrange
    rw [not_and, not_and, not_or] at hnone
    exact ⟨fun hlabel => (hbitmaps hlabel).mpr (hnone.1 hlabel),
      fun hlabel => (hlens hlabel).mpr (hnone.2 hlabel)⟩

/-- The long cooldown of a pool is backed by a proof that it is empty, unless the pool is seen empty with a read
missing. -/
theorem cooldown_proved_iff :
    ((pass.run allowWiden).ArmsEmpty pool →
        ∃ i, pass.arena.inner.addressToPool pool = some i ∧ pass.ProvedEmpty pool i) ↔
      ¬∃ i, pass.SeenEmpty pool i allowWiden ∧ pass.SilentGap pool i := by
  rw [armsEmpty_iff]
  constructor
  · rintro hproved ⟨i, hseen, hgap⟩
    rcases hproved ⟨i, hseen⟩ with ⟨j, hslot, hempty⟩
    rw [hseen.slot, Option.some_inj] at hslot
    subst hslot
    exact (provedEmpty_iff hseen).mp hempty hgap
  · rintro hnone ⟨i, hseen⟩
    exact ⟨i, hseen.slot, (provedEmpty_iff hseen).mpr fun hgap => hnone ⟨i, hseen, hgap⟩⟩

end V3Pass

end PolygonArb

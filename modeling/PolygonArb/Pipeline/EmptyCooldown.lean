import PolygonArb.Pipeline.TickWaves

/-!
# The long cooldown of V4 pools

A pass of `enrich_v4_ticks` reads the pools in a narrow window and those that stay without ticks once more in a
wide one, and then puts the pools it takes for empty on the long cooldown.  It does so exactly for those it has
seen empty (`V4Pass.armsEmpty_iff`): the flags of the first wave tell of batches that failed, of words that were not
answered and of reads that were cut, those of the second wave of failed batches only.  A tick read without an
answer, and in the second wave a word without one or a read that was cut, look like an empty pool.
-/

namespace PolygonArb

open Word ByteFormat

section Basics

variable {family : ClFamily} {arena : StateArena} {i : PoolIndex}

instance {κ : Type} (wave : Wave κ) (reader : TickReader κ) (i : PoolIndex) :
    Decidable (wave.ShowsNothing reader i) :=
  inferInstanceAs (Decidable (entriesOf (wave.entries reader) i = []))

lemma tickless_iff : Tickless family arena i ↔ ((clPool family arena i).any fun s => s.ticks.isEmpty) = true := by
  rw [Tickless, Option.any_eq_true]
  simp only [List.isEmpty_iff]

lemma stillTicklessV4_store {targets : List (PoolIndex × PoolId)} {wave : Wave (PoolIndex × PoolId)}
    (hfits : arena.OverlayFits) :
    stillTicklessV4 (storeGroups .v4 (groupTicks (wave.entries v4Reader)) arena).1 targets =
      (stillTicklessV4 arena targets).filter fun target => wave.ShowsNothing v4Reader target.1 := by
  rw [stillTicklessV4, stillTicklessV4, List.filter_filter]
  refine List.filter_congr fun target _ => ?_
  rw [Bool.eq_iff_iff, Bool.and_eq_true, decide_eq_true_eq, ← tickless_iff, ← tickless_iff,
    tickless_storeEntries hfits, and_comm]
  rfl

end Basics

/-- What a pass over V4 pools is called with.  A pool id decides the address and with it the slot, and the callers
collect every slot once. -/
structure V4Pass where
  keccak256 : List Byte → BitVec 256
  order : TieOrder
  narrowRpc : BitmapRpc
  wideRpc : BitmapRpc
  arena : StateArena
  targets : List (PoolIndex × PoolId)
  wordRange : ℤ
  overlayFits : arena.OverlayFits
  nodup_ids : (targets.map Prod.snd).Nodup

namespace V4Pass

variable (pass : V4Pass) (target : PoolIndex × PoolId)

def run (allowWiden : Bool) : Hydration PoolId :=
  enrichV4Ticks pass.keccak256 pass.order pass.narrowRpc pass.wideRpc pass.arena pass.targets pass.wordRange
    allowWiden

/-- The replies in the narrow window. -/
def narrow : Wave (PoolIndex × PoolId) :=
  v4Wave pass.keccak256 pass.order pass.narrowRpc pass.arena pass.targets pass.wordRange

/-- Of the targets that the narrow replies leave without ticks, the ones with the most liquidity. -/
def wideTargets : List (PoolIndex × PoolId) :=
  (pass.order.byLiquidity (fun target => ((clPool .v4 pass.arena target.1).map fun s => s.liquidity).getD 0)
    ((stillTicklessV4 pass.arena pass.targets).filter fun target =>
      pass.narrow.ShowsNothing v4Reader target.1)).take maxWideTickPools

/-- The replies in the wide window. -/
def wide : Wave (PoolIndex × PoolId) :=
  v4Wave pass.keccak256 pass.order pass.wideRpc pass.arena pass.wideTargets (wideRange pass.wordRange)

/-- The narrow wave raises no flag: both batches went through, every word was answered and no read was cut. -/
structure NarrowClear : Prop where
  batches : ¬V4WaveFailed pass.keccak256 pass.order pass.narrowRpc pass.arena pass.targets pass.wordRange
  budget : ¬Overruns maxClTickInfoReads pass.narrow.windows
  words : ∀ window ∈ pass.narrow.windows, window.Answered

/-- The wide wave raises no flag: both batches went through. -/
def WideClear : Prop :=
  ¬V4WaveFailed pass.keccak256 pass.order pass.wideRpc pass.arena pass.wideTargets (wideRange pass.wordRange)

/-- The pool is seen empty: no flag is raised and no reply shows a tick of it, in the widest window. -/
structure SeenEmpty (allowWiden : Bool) : Prop where
  listed : target ∈ pass.targets
  widens : allowWiden = true
  range : 0 ≤ pass.wordRange
  clear : pass.NarrowClear
  tickless : Tickless .v4 pass.arena target.1
  narrow : pass.narrow.ShowsNothing v4Reader target.1
  wide : pass.wordRange < 48 →
    target ∈ pass.wideTargets ∧ pass.WideClear ∧ pass.wide.ShowsNothing v4Reader target.1

/-- Reads that are missing without a flag. -/
def SilentGap : Prop :=
  pass.narrow.TickGap v4Reader target.1 ∨
    pass.wordRange < 48 ∧ (pass.wide.WordGap v4Reader target.1 ∨ pass.wide.TickGap v4Reader target.1)

/-- Every read of the pool, in the narrow and in the widest window, was answered and shows no tick. -/
def ProvedEmpty : Prop :=
  pass.narrow.ProvesEmpty v4Reader target.1 ∧
    (pass.wordRange < 48 → pass.wide.ProvesEmpty v4Reader target.1)

variable {pass target} {allowWiden : Bool}

lemma wideTargets_eq :
    v4WideTargets pass.order (storeGroups .v4 (groupTicks (pass.narrow.entries v4Reader)) pass.arena).1
      pass.targets = pass.wideTargets := by
  have hkey : (fun target : PoolIndex × PoolId => ((clPool .v4 (storeGroups .v4 (groupTicks
        (pass.narrow.entries v4Reader)) pass.arena).1 target.1).map fun s => s.liquidity).getD 0) =
      fun target => ((clPool .v4 pass.arena target.1).map fun s => s.liquidity).getD 0 := by
    funext target
    rw [map_clPool_congr (fun _ => rfl) (clShape_storeGroups pass.overlayFits)]
  rw [v4WideTargets, hkey, stillTicklessV4_store pass.overlayFits, wideTargets]

lemma mem_targets_of_wide (h : target ∈ pass.wideTargets) : target ∈ pass.targets := by
  have hmem := (perm_byLiquidity pass.order _ _).mem_iff.mp (List.mem_of_mem_take h)
  exact List.mem_of_mem_filter (List.mem_of_mem_filter hmem)

/-- A pool that the replies do not show is not counted as updated. -/
lemma stored_narrow_lt (htarget : target ∈ pass.targets) (h : pass.narrow.ShowsNothing v4Reader target.1) :
    (storeGroups .v4 (groupTicks (pass.narrow.entries v4Reader)) pass.arena).2 < pass.targets.length := by
  have hlen : (pass.targets.map Prod.fst).length = pass.targets.length := List.length_map _
  rw [← hlen]
  refine stored_lt (fun k hk => ?_) (List.mem_map_of_mem htarget) h
  rcases List.mem_map.mp hk with ⟨e, he, rfl⟩
  rcases List.mem_filterMap.mp he with ⟨⟨call, bytes⟩, hpair, hentry⟩
  rw [(v4Reader.slot_entry hentry).1]
  have hcall := (List.of_mem_zip hpair).1
  rcases List.mem_flatMap.mp (List.mem_of_mem_take hcall) with ⟨window, hwindow, hin⟩
  rcases List.mem_map.mp hin with ⟨t, -, rfl⟩
  rcases mem_v4Windows hwindow with ⟨owner, howner, s, -, hof⟩
  rw [hof.owner]
  exact List.mem_map_of_mem howner

lemma batch_ne_nil (hrange : 0 ≤ pass.wordRange) (htarget : target ∈ pass.targets)
    (h : Tickless .v4 pass.arena target.1) :
    batch (v4Requests pass.keccak256 pass.arena pass.wordRange pass.targets) ≠ [] := by
  rcases h with ⟨s, hs, -⟩
  rcases exists_v4Window pass.keccak256 pass.order pass.wordRange htarget hs [] with ⟨window, -, hwindow⟩
  rcases hwindow.words 0 (by rw [hwindow.wordCount]; omega) with ⟨k, hk, -⟩
  rintro hnil
  rw [hnil] at hk
  cases hk

/-- A target holds its own pool id. -/
lemma mem_ids_iff {others : List (PoolIndex × PoolId)} (hsub : ∀ other ∈ others, other ∈ pass.targets)
    (htarget : target ∈ pass.targets) : target.2 ∈ others.map Prod.snd ↔ target ∈ others := by
  constructor
  · intro h
    rcases List.mem_map.mp h with ⟨other, hother, hid⟩
    rwa [← List.inj_on_of_nodup_map pass.nodup_ids (hsub other hother) htarget hid]
  · exact List.mem_map_of_mem

lemma batch_eq_nil_of_neg (h : pass.wordRange < 0) :
    batch (v4Requests pass.keccak256 pass.arena pass.wordRange pass.targets) = [] := by
  refine List.flatMap_eq_nil_iff.mpr fun request hrequest => ?_
  rcases List.mem_filterMap.mp hrequest with ⟨target, -, hmade⟩
  rcases Option.map_eq_some_iff.mp hmade with ⟨s, -, rfl⟩
  have hcount : (2 * pass.wordRange + 1).toNat = 0 := by omega
  dsimp only
  rw [windowWords_eq, hcount]
  rfl

/-- A wave over no targets shows nothing and cannot fail. -/
lemma wave_nil {keccak256 : List Byte → BitVec 256} {order : TieOrder} {rpc : BitmapRpc} {arena : StateArena}
    {range : ℤ} (i : PoolIndex) : (v4Wave keccak256 order rpc arena [] range).ShowsNothing v4Reader i ∧
      ¬V4WaveFailed keccak256 order rpc arena [] range := by
  have hqueued : queuedReads (v4WaveWindows keccak256 order rpc arena [] range) = [] :=
    queued_v4Wave_of_no_words answers_nil
  rw [Wave.ShowsNothing, entries_v4Wave_of_nil hqueued, v4WaveFailed_of_nil hqueued]
  exact ⟨rfl, fun h => h.1 rfl⟩

/-- The arena after the narrow replies. -/
def narrowArena (pass : V4Pass) : StateArena :=
  (storeGroups .v4 (groupTicks (pass.narrow.entries v4Reader)) pass.arena).1

/-- Nothing to read, or a narrow batch that failed: the pass ends early. -/
def EndsEarly (pass : V4Pass) : Prop :=
  batch (v4Requests pass.keccak256 pass.arena pass.wordRange pass.targets) = [] ∨
    V4WaveFailed pass.keccak256 pass.order pass.narrowRpc pass.arena pass.targets pass.wordRange

/-- The targets of the second wave. -/
def chosen (pass : V4Pass) (allowWiden : Bool) : List (PoolIndex × PoolId) :=
  if (storeGroups .v4 (groupTicks (pass.narrow.entries v4Reader)) pass.arena).2 < pass.targets.length ∧
      allowWiden = true ∧ pass.wordRange < 48 then pass.wideTargets
  else []

def wideStageOf (pass : V4Pass) (allowWiden : Bool) : StateArena × TickEnrichment :=
  enrichV4TicksOnce pass.keccak256 pass.order pass.wideRpc pass.narrowArena (pass.chosen allowWiden)
    (wideRange pass.wordRange)

/-- The second wave asks what it would ask of the arena before the pass. -/
lemma wideStageOf_eq (i : PoolIndex) :
    (Tickless .v4 (pass.wideStageOf allowWiden).1 i ↔
        Tickless .v4 pass.arena i ∧ pass.narrow.ShowsNothing v4Reader i ∧
          (v4Wave pass.keccak256 pass.order pass.wideRpc pass.arena (pass.chosen allowWiden)
            (wideRange pass.wordRange)).ShowsNothing v4Reader i) ∧
      ((pass.wideStageOf allowWiden).2.rpcFailed = true ↔
        V4WaveFailed pass.keccak256 pass.order pass.wideRpc pass.arena (pass.chosen allowWiden)
          (wideRange pass.wordRange)) := by
  have hshape : ∀ i, clShape .v4 pass.narrowArena i = clShape .v4 pass.arena i :=
    fun i => clShape_storeGroups pass.overlayFits
  rw [wideStageOf, enrichV4TicksOnce_eq.1, enrichV4TicksOnce_eq.2, v4Wave_congr hshape,
    v4WaveFailed_congr hshape, narrowArena, tickless_storeEntries (overlayFits_storeGroups pass.overlayFits),
    tickless_storeEntries pass.overlayFits, and_assoc]
  exact ⟨Iff.rfl, Iff.rfl⟩

lemma not_armsEmpty_of_endsEarly {id : PoolId} (h : pass.EndsEarly) :
    ¬(pass.run allowWiden).ArmsEmpty id := by
  rcases v4Narrow_error h with ⟨report, hrun⟩
  rintro ⟨pools, harmed, -⟩
  rw [run, enrichV4Ticks, hrun] at harmed
  cases harmed

/-- The long cooldown is armed for what stays without ticks, if neither wave raised a flag. -/
lemma armsEmpty_run {id : PoolId} (h : ¬pass.EndsEarly) : (pass.run allowWiden).ArmsEmpty id ↔
    id ∈ (stillTicklessV4 (pass.wideStageOf allowWiden).1 pass.targets).map Prod.snd ∧
      (pass.NarrowClear ∧ (pass.wideStageOf allowWiden).2.rpcFailed = false) ∧ allowWiden = true ∧
      (48 ≤ pass.wordRange ∨ id ∈ (pass.chosen allowWiden).map Prod.snd) := by
  rw [EndsEarly, not_or] at h
  rcases v4Narrow_ok h.1 h.2 with ⟨narrow, hrun, harena, hupdated, hflags⟩
  have hclear : (narrow.incompletePools = [] ∧ narrow.capped = false) ↔ pass.NarrowClear := by
    rw [hflags]
    exact ⟨fun ⟨hbudget, hwords⟩ => ⟨h.2, hbudget, hwords⟩, fun hclear => ⟨hclear.budget, hclear.words⟩⟩
  have hchosen : (if narrow.updated < pass.targets.length ∧ allowWiden = true ∧ pass.wordRange < 48 then
      v4WideTargets pass.order narrow.arena pass.targets else []) = pass.chosen allowWiden := by
    rw [harena, hupdated, ← V4Pass.narrow, wideTargets_eq, chosen]
  have hcooldown : (pass.run allowWiden).cooldown =
      armCooldown ((stillTicklessV4 (pass.wideStageOf allowWiden).1 pass.targets).map Prod.snd)
        (!(stillTicklessV4 (pass.wideStageOf allowWiden).1 pass.targets).isEmpty &&
          (decide (0 < narrow.incompletePools.length) || narrow.capped ||
            (pass.wideStageOf allowWiden).2.rpcFailed))
        (decide (0 < narrow.incompletePools.length)) allowWiden
        fun id => decide (48 ≤ pass.wordRange) || decide (id ∈ (pass.chosen allowWiden).map Prod.snd) := by
    rw [run, enrichV4Ticks, hrun]
    dsimp only
    rw [hchosen, harena]
    rfl
  rw [Hydration.ArmsEmpty, hcooldown, armCooldown_eq_empty, Bool.or_eq_true, decide_eq_true_eq,
    decide_eq_true_eq, ← hclear]
  refine and_congr_right fun hmem => and_congr_left fun _ => ?_
  have hsome : (stillTicklessV4 (pass.wideStageOf allowWiden).1 pass.targets).isEmpty = false := by
    rw [List.isEmpty_eq_false_iff]
    rintro hnil
    rw [hnil] at hmem
    cases hmem
  rw [hsome]
  simp [and_assoc]

/-- The long cooldown is armed for exactly the pools that are seen empty. -/
theorem armsEmpty_iff {id : PoolId} :
    (pass.run allowWiden).ArmsEmpty id ↔ ∃ i, pass.SeenEmpty (i, id) allowWiden := by
  constructor
  · intro harmed
    have hruns : ¬pass.EndsEarly := fun h => not_armsEmpty_of_endsEarly h harmed
    rcases (armsEmpty_run hruns).mp harmed with ⟨hmem, ⟨hclear, hrpc⟩, hallow, hfull⟩
    rcases List.mem_map.mp hmem with ⟨target, htarget, rfl⟩
    rcases List.mem_filter.mp htarget with ⟨hlisted, hstill⟩
    rcases (wideStageOf_eq target.1).1.mp (tickless_iff.mpr hstill) with ⟨hbefore, hnarrow, hwide⟩
    refine ⟨target.1, hlisted, hallow, ?_, hclear, hbefore, hnarrow, fun hrange => ?_⟩
    · by_contra hneg
      exact hruns (Or.inl (batch_eq_nil_of_neg (not_le.mp hneg)))
    · have hchosen : pass.chosen allowWiden = pass.wideTargets := by
        rw [chosen, if_pos ⟨stored_narrow_lt hlisted hnarrow, hallow, hrange⟩]
      rw [← Bool.not_eq_true, (wideStageOf_eq target.1).2, hchosen] at hrpc
      rw [hchosen] at hfull hwide
      exact ⟨(mem_ids_iff (fun other => mem_targets_of_wide) hlisted).mp (hfull.resolve_left (by omega)),
        hrpc, hwide⟩
  · rintro ⟨i, hseen⟩
    have hruns : ¬pass.EndsEarly := by
      rintro (hnone | hfailed)
      · exact batch_ne_nil hseen.range hseen.listed hseen.tickless hnone
      · exact hseen.clear.batches hfailed
    have hmem : ∀ arena, Tickless .v4 arena i → id ∈ (stillTicklessV4 arena pass.targets).map Prod.snd :=
      fun arena hstill => List.mem_map.mpr
        ⟨(i, id), List.mem_filter.mpr ⟨hseen.listed, tickless_iff.mp hstill⟩, rfl⟩
    rw [armsEmpty_run hruns]
    rcases lt_or_ge pass.wordRange 48 with hrange | hrange
    · rcases hseen.wide hrange with ⟨hwide, hwideClear, hnothing⟩
      have hchosen : pass.chosen allowWiden = pass.wideTargets := by
        rw [chosen, if_pos ⟨stored_narrow_lt hseen.listed hseen.narrow, hseen.widens, hrange⟩]
      refine ⟨hmem _ ((wideStageOf_eq i).1.mpr ⟨hseen.tickless, hseen.narrow, ?_⟩), ⟨hseen.clear, ?_⟩,
        hseen.widens, Or.inr ?_⟩
      · rw [hchosen]
        exact hnothing
      · rw [← Bool.not_eq_true, (wideStageOf_eq i).2, hchosen]
        exact hwideClear
      · rw [hchosen]
        exact List.mem_map_of_mem hwide
    · have hchosen : pass.chosen allowWiden = [] := by
        rw [chosen, if_neg (by omega)]
      refine ⟨hmem _ ((wideStageOf_eq i).1.mpr ⟨hseen.tickless, hseen.narrow, ?_⟩), ⟨hseen.clear, ?_⟩,
        hseen.widens, Or.inl hrange⟩
      · rw [hchosen]
        exact (wave_nil i).1
      · rw [← Bool.not_eq_true, (wideStageOf_eq i).2, hchosen]
        exact (wave_nil i).2

lemma asked_v4Wave {keccak256 : List Byte → BitVec 256} {order : TieOrder} {rpc : BitmapRpc} {arena : StateArena}
    {targets : List (PoolIndex × PoolId)} {range : ℤ} (htarget : target ∈ targets)
    (h : Tickless .v4 arena target.1) :
    ∃ window ∈ (v4Wave keccak256 order rpc arena targets range).windows,
      v4Reader.slot window.owner = target.1 := by
  rcases h with ⟨s, hs, -⟩
  rcases exists_v4Window keccak256 order range htarget hs
    (rpc.words.answers (batch (v4Requests keccak256 arena range targets))) with ⟨window, hmem, hwindow⟩
  refine ⟨window, hmem, ?_⟩
  rw [hwindow.owner]
  rfl

/-- A pool that is seen empty is proved empty if and only if no read is missing without a flag. -/
lemma provedEmpty_iff (h : pass.SeenEmpty target allowWiden) :
    pass.ProvedEmpty target ↔ ¬pass.SilentGap target := by
  have hwords : ¬pass.narrow.WordGap v4Reader target.1 := by
    rintro ⟨window, hmem, -, hgap⟩
    exact hgap (h.clear.words window hmem)
  have hwide : pass.wordRange < 48 → (pass.wide.ProvesEmpty v4Reader target.1 ↔
      ¬pass.wide.WordGap v4Reader target.1 ∧ ¬pass.wide.TickGap v4Reader target.1) := by
    intro hrange
    rcases h.wide hrange with ⟨hchosen, -, hnothing⟩
    have hasked : ∃ window ∈ pass.wide.windows, v4Reader.slot window.owner = target.1 :=
      asked_v4Wave hchosen h.tickless
    rw [Wave.provesEmpty_iff hasked]
    exact and_iff_right hnothing
  have hasked : ∃ window ∈ pass.narrow.windows, v4Reader.slot window.owner = target.1 :=
    asked_v4Wave h.listed h.tickless
  rw [ProvedEmpty, SilentGap, Wave.provesEmpty_iff hasked, not_or, not_and, not_or]
  constructor
  · rintro ⟨⟨-, -, hticks⟩, hrest⟩
    exact ⟨hticks, fun hrange => (hwide hrange).mp (hrest hrange)⟩
  · rintro ⟨hticks, hrest⟩
    exact ⟨⟨h.narrow, hwords, hticks⟩, fun hrange => (hwide hrange).mpr (hrest hrange)⟩

/-- The long cooldown of a pool is backed by a proof that it is empty, unless the pool is seen empty with a read
missing. -/
theorem cooldown_proved_iff {id : PoolId} :
    ((pass.run allowWiden).ArmsEmpty id → ∃ i, (i, id) ∈ pass.targets ∧ pass.ProvedEmpty (i, id)) ↔
      ¬∃ i, pass.SeenEmpty (i, id) allowWiden ∧ pass.SilentGap (i, id) := by
  rw [armsEmpty_iff]
  constructor
  · rintro hproved ⟨i, hseen, hgap⟩
    rcases hproved ⟨i, hseen⟩ with ⟨j, hlisted, hempty⟩
    have hsame := List.inj_on_of_nodup_map pass.nodup_ids hseen.listed hlisted rfl
    rw [← hsame] at hempty
    exact (provedEmpty_iff hseen).mp hempty hgap
  · rintro hnone ⟨i, hseen⟩
    exact ⟨i, hseen.listed, (provedEmpty_iff hseen).mpr fun hgap => hnone ⟨i, hseen, hgap⟩⟩

end V4Pass

end PolygonArb

import PolygonArb.Lib.IndexTable
import PolygonArb.Pipeline.EmptyCooldown
import PolygonArb.Pipeline.LensWaves

/-!
# The first waves of a V3 pass

A pass of `enrich_v3_ticks` reads most pools through the tick lens and those labelled Algebra through their own
bitmaps.  The lens tells of words that are missing, the Algebra wave of failed batches and of reads that were cut;
if neither tells of anything, what the pass goes on with are the narrow replies alone (`algebraStage_eq`), and a
pool stays without ticks if they show none (`tickless_narrowArena`).
-/

namespace PolygonArb

open Word ByteFormat IndexTable

section Congr

variable {arena arena' : StateArena} {pool : Address} {wordRange : ℤ}

/-- Two arenas with the same tables and the same pools apart from their ticks. -/
structure SameShape (arena arena' : StateArena) : Prop where
  shape : ∀ i, clShape .v3 arena' i = clShape .v3 arena i
  slots : arena'.inner.addressToPool = arena.inner.addressToPool
  addresses : arena'.inner.poolAddresses = arena.inner.poolAddresses

lemma sameShape_storeGroups {groups : List (PoolIndex × List V3Tick)} (hfits : arena.OverlayFits) :
    SameShape arena (storeGroups .v3 groups arena).1 where
  shape _ := clShape_storeGroups hfits
  slots := tables_storeGroups.1
  addresses := tables_storeGroups.2

lemma SameShape.trans {arena'' : StateArena} (h : SameShape arena arena') (h' : SameShape arena' arena'') :
    SameShape arena arena'' where
  shape i := (h'.shape i).trans (h.shape i)
  slots := h'.slots.trans h.slots
  addresses := h'.addresses.trans h.addresses

variable (h : SameShape arena arena')

include h

lemma v3Pool_map_congr {β : Type} {g : PoolIndex × V3PoolState → β}
    (hg : ∀ idx s, g (idx, { s with ticks := [] }) = g (idx, s)) :
    (v3Pool arena' pool).map g = (v3Pool arena pool).map g := by
  rw [v3Pool, v3Pool, h.slots, Option.map_bind, Option.map_bind]
  refine Option.bind_congr fun idx _ => ?_
  simp only [Function.comp_apply, Option.map_map]
  exact map_clPool_congr (fun s => hg idx s) (h.shape idx)

lemma lensRequests_congr (abi : TickAbi) (pools : List Address) :
    lensRequests abi arena' wordRange pools = lensRequests abi arena wordRange pools :=
  List.filterMap_congr fun _ _ => v3Pool_map_congr h fun _ _ => rfl

lemma lensWave_congr (abi : TickAbi) (rpc : Multicall) (pools : List Address) :
    lensWave abi rpc arena' pools wordRange = lensWave abi rpc arena pools wordRange := by
  rw [lensWave, lensWave, lensRequests_congr h]

lemma algebraFallbackTarget_congr (idx : PoolIndex) :
    algebraFallbackTarget arena' idx wordRange = algebraFallbackTarget arena idx wordRange := by
  rw [algebraFallbackTarget, algebraFallbackTarget, h.addresses]
  exact Option.bind_congr fun address _ => map_clPool_congr (fun _ => rfl) (h.shape idx)

lemma algebraWaveTargets_congr (order : TieOrder) (targets : List AlgebraTarget) :
    algebraWaveTargets order arena' targets = algebraWaveTargets order arena targets := by
  have hkey : (fun target : AlgebraTarget => ((clPool .v3 arena' target.idx).map fun s => s.liquidity).getD 0) =
      fun target => ((clPool .v3 arena target.idx).map fun s => s.liquidity).getD 0 := by
    funext target
    rw [map_clPool_congr (fun _ => rfl) (h.shape target.idx)]
  rw [algebraWaveTargets, algebraWaveTargets, algebraRanked, algebraRanked, hkey]

lemma algebraWave_congr (abi : TickAbi) (order : TieOrder) (rpc : BitmapRpc) (targets : List AlgebraTarget) :
    algebraWave abi order rpc arena' targets = algebraWave abi order rpc arena targets := by
  simp only [algebraWave, algebraWaveWindows, algebraWaveBatch, algebraWaveTargets_congr h]

lemma algebraWaveFailed_congr (abi : TickAbi) (order : TieOrder) (rpc : BitmapRpc)
    (targets : List AlgebraTarget) :
    AlgebraWaveFailed abi order rpc arena' targets ↔ AlgebraWaveFailed abi order rpc arena targets := by
  simp only [AlgebraWaveFailed, algebraWaveWindows, algebraWaveBatch, algebraWaveTargets_congr h]

end Congr

section Targets

lemma eraseDupsBy_sublist {α : Type} (r : α → α → Bool) (xs : List α) : (xs.eraseDupsBy r).Sublist xs := by
  match xs with
  | [] => exact List.Sublist.refl []
  | x :: xs =>
      rw [List.eraseDupsBy_cons]
      exact ((eraseDupsBy_sublist r _).trans List.filter_sublist).cons_cons x
termination_by xs.length
decreasing_by exact Nat.lt_succ_of_le (List.length_filter_le _ _)

/-- What is dropped has a twin that is kept. -/
lemma exists_mem_eraseDupsBy {α β : Type} [DecidableEq β] (key : α → β) {x : α} {xs : List α} (h : x ∈ xs) :
    ∃ y ∈ xs.eraseDupsBy fun a b => key a == key b, key y = key x := by
  match xs with
  | z :: xs =>
      rw [List.eraseDupsBy_cons]
      by_cases hz : key z = key x
      · exact ⟨z, List.mem_cons_self, hz⟩
      · rcases List.mem_cons.mp h with rfl | hmem
        · exact absurd rfl hz
        · have hkept : x ∈ xs.filter fun b => (key b == key z) = false := by
            rw [List.mem_filter]
            exact ⟨hmem, by simpa using fun heq => hz heq.symm⟩
          rcases exists_mem_eraseDupsBy key hkept with ⟨y, hy, hkey⟩
          exact ⟨y, List.mem_cons_of_mem _ hy, hkey⟩
termination_by xs.length
decreasing_by exact Nat.lt_succ_of_le (List.length_filter_le _ _)

lemma mem_algebraWaveTargets {arena : StateArena} {order : TieOrder} {targets : List AlgebraTarget}
    {target : AlgebraTarget} (hcount : targets.length ≤ maxAlgebraTickPools) :
    target ∈ algebraWaveTargets order arena targets ↔ target ∈ targets := by
  have hperm := perm_byLiquidity order
    (fun target : AlgebraTarget => ((clPool .v3 arena target.idx).map fun s => s.liquidity).getD 0) targets
  rw [algebraWaveTargets, algebraRanked, List.take_of_length_le (by rw [hperm.length_eq]; exact hcount)]
  exact hperm.mem_iff

lemma words_ne_nil (abi : TickAbi) {target : AlgebraTarget} (h : target.wordMin ≤ target.wordMax) :
    (wordSpan target.wordMin target.wordMax).map (tickTableItem abi target.pool) ≠ [] := by
  rw [ne_eq, List.map_eq_nil_iff, wordSpan, List.map_eq_nil_iff, List.range_eq_nil]
  omega

end Targets

/-- What a pass over V3 pools is called with, on an arena whose tables are inverse to each other. -/
structure V3Pass where
  abi : TickAbi
  order : TieOrder
  rpc : V3Rpc
  arena : StateArena
  pools : List Address
  wordRange : ℕ
  algebraPools : Finset Address
  algebraIntegralPools : Finset Address
  overlayFits : arena.OverlayFits
  tables : InverseIndex arena.inner.poolAddresses arena.inner.addressToPool

namespace V3Pass

variable (pass : V3Pass) (pool : Address) (i : PoolIndex)

def run (allowWiden : Bool) : Hydration Address :=
  enrichV3Ticks pass.abi pass.order pass.rpc pass.arena pass.pools pass.wordRange pass.algebraPools
    pass.algebraIntegralPools allowWiden

def lensPools : List Address := pass.pools.filter fun pool => pool ∉ pass.algebraPools

/-- The replies of the tick lens in the narrow window. -/
def lens : LensWave := lensWave pass.abi pass.rpc.lens pass.arena pass.lensPools pass.wordRange

/-- The labelled pools, each slot once. -/
def algebraTargets : List AlgebraTarget := allAlgebra pass.arena pass.pools pass.wordRange pass.algebraPools []

def reader : TickReader (Address × PoolIndex) := algebraReader pass.abi pass.algebraIntegralPools

/-- The replies of the labelled pools in the narrow window. -/
def algebra : Wave (Address × PoolIndex) :=
  algebraWave pass.abi pass.order pass.rpc.algebra pass.arena pass.algebraTargets

/-- A label keeps a pool off the tick lens in the wide window. -/
def Labelled : Prop := pool ∈ pass.algebraPools ∨ pool ∈ pass.algebraIntegralPools

instance : Decidable (pass.Labelled pool) := inferInstanceAs (Decidable (_ ∨ _))

/-- The narrow replies show no tick of the slot. -/
def NarrowNothing : Prop := pass.lens.ShowsNothing pass.abi i ∧ pass.algebra.ShowsNothing pass.reader i

instance : Decidable (pass.NarrowNothing i) :=
  inferInstanceAs (Decidable ((i ∉ (pass.lens.groups pass.abi).map Prod.fst) ∧
    pass.algebra.ShowsNothing pass.reader i))

/-- Of the pools that the narrow replies leave without ticks, the ones with the most liquidity. -/
def wideTargets : List Address :=
  (pass.order.byLiquidity (fun pool => ((v3Pool pass.arena pool).map fun found => found.2.liquidity).getD 0)
    ((stillTicklessV3 pass.arena pass.pools).filter fun pool =>
      (v3Pool pass.arena pool).all fun found => pass.NarrowNothing found.1).eraseDups).take maxWideTickPools

/-- The replies of the tick lens in the wide window. -/
def wideLens : LensWave :=
  lensWave pass.abi pass.rpc.wideLens pass.arena (pass.wideTargets.filter fun pool => ¬pass.Labelled pool)
    (wideRange pass.wordRange)

def wideAlgebraTargets : List AlgebraTarget :=
  (pass.wideTargets.filter fun pool => pass.Labelled pool).filterMap fun pool =>
    (pass.arena.inner.addressToPool pool).bind fun idx =>
      algebraFallbackTarget pass.arena idx (wideRange pass.wordRange)

/-- The replies of the labelled pools in the wide window. -/
def wideAlgebra : Wave (Address × PoolIndex) :=
  algebraWave pass.abi pass.order pass.rpc.wideAlgebra pass.arena pass.wideAlgebraTargets

/-- The narrow waves raise no flag: no batch failed, every word of the lens was answered, and there were neither
too many labelled pools nor too many of their ticks. -/
structure NarrowClear : Prop where
  lensBatch : ¬pass.rpc.lens.Failed (batch (lensRequests pass.abi pass.arena pass.wordRange pass.lensPools))
  lensWords : pass.lens.Complete pass.abi
  algebraBatches : ¬AlgebraWaveFailed pass.abi pass.order pass.rpc.algebra pass.arena pass.algebraTargets
  algebraBudget : ¬Overruns maxClTickInfoReads pass.algebra.windows
  algebraPools : pass.algebraTargets.length ≤ maxAlgebraTickPools

/-- The pool is seen empty: no flag is raised and no reply shows a tick of it, in the widest window. -/
structure SeenEmpty (allowWiden : Bool) : Prop where
  listed : pool ∈ pass.pools
  widens : allowWiden = true
  slot : pass.arena.inner.addressToPool pool = some i
  clear : pass.NarrowClear
  tickless : Tickless .v3 pass.arena i
  narrow : pass.NarrowNothing i
  wide : pass.wordRange < 48 → pool ∈ pass.wideTargets ∧ pass.wideLens.ShowsNothing pass.abi i ∧
    pass.wideAlgebra.ShowsNothing pass.reader i

/-- Reads that are missing without a flag. -/
def SilentGap : Prop :=
  (pool ∈ pass.algebraPools ∧ (pass.algebra.WordGap pass.reader i ∨ pass.algebra.TickGap pass.reader i)) ∨
    pass.wordRange < 48 ∧
      (pass.Labelled pool ∧ (pass.wideAlgebra.WordGap pass.reader i ∨ pass.wideAlgebra.TickGap pass.reader i) ∨
        ¬pass.Labelled pool ∧ pass.wideLens.WordGap pass.abi i)

/-- Every read of the pool, in the narrow and in the widest window, was answered and shows no tick. -/
def ProvedEmpty : Prop :=
  (pool ∈ pass.algebraPools → pass.algebra.ProvesEmpty pass.reader i) ∧
    (pool ∉ pass.algebraPools → pass.lens.ProvesEmpty pass.abi i) ∧
    (pass.wordRange < 48 →
      (pass.Labelled pool → pass.wideAlgebra.ProvesEmpty pass.reader i) ∧
        (¬pass.Labelled pool → pass.wideLens.ProvesEmpty pass.abi i))

/-! ### The first waves -/

variable {pass pool i} {allowWiden : Bool}

lemma mem_algebraTargets {target : AlgebraTarget} (h : target ∈ pass.algebraTargets) :
    target.pool ∈ pass.algebraPools ∧ target.pool ∈ pass.pools ∧ target.wordMin ≤ target.wordMax := by
  have hmem := (eraseDupsBy_sublist _ _).subset h
  rw [List.append_nil] at hmem
  rcases List.mem_filterMap.mp hmem with ⟨pool, hpool, hmade⟩
  rw [algebraTarget, Option.map_eq_some_iff] at hmade
  rcases hmade with ⟨found, -, rfl⟩
  rcases List.mem_filter.mp hpool with ⟨hin, hlabel⟩
  dsimp only
  exact ⟨by simpa using hlabel, hin, by omega⟩

lemma length_algebraTargets_le :
    pass.algebraTargets.length ≤ (pass.pools.filter fun pool => pool ∈ pass.algebraPools).length := by
  have hsub := (eraseDupsBy_sublist (fun a b : AlgebraTarget => a.idx == b.idx)
    ((pass.pools.filter fun pool => pool ∈ pass.algebraPools).filterMap
      (algebraTarget pass.arena pass.wordRange) ++ [])).length_le
  rw [List.append_nil] at hsub
  rw [algebraTargets, allAlgebra, List.append_nil]
  exact hsub.trans (List.length_filterMap_le _ _)

/-- Where there are pools there are words to read. -/
lemma length_le_of_no_words (h : algebraWaveBatch pass.abi pass.order pass.arena pass.algebraTargets = []) :
    pass.algebraTargets.length ≤ maxAlgebraTickPools := by
  rw [algebraWaveBatch, batch, List.flatMap_eq_nil_iff] at h
  by_contra hmany
  have hlen : (algebraWaveTargets pass.order pass.arena pass.algebraTargets).length = maxAlgebraTickPools := by
    have hperm := perm_byLiquidity pass.order (fun target : AlgebraTarget =>
      ((clPool .v3 pass.arena target.idx).map fun s => s.liquidity).getD 0) pass.algebraTargets
    rw [algebraWaveTargets, algebraRanked, List.length_take, hperm.length_eq]
    omega
  rcases List.exists_mem_of_length_pos (by rw [hlen]; norm_num [maxAlgebraTickPools] :
    0 < (algebraWaveTargets pass.order pass.arena pass.algebraTargets).length) with ⟨target, htarget⟩
  have hmem := (perm_byLiquidity pass.order _ _).mem_iff.mp (List.mem_of_mem_take htarget)
  exact words_ne_nil _ (mem_algebraTargets hmem).2.2 (h _ (List.mem_map_of_mem htarget))

/-- The arena after the narrow replies of the tick lens. -/
def lensArena (pass : V3Pass) : StateArena := (storeGroups .v3 (pass.lens.groups pass.abi) pass.arena).1

/-- The arena after all narrow replies. -/
def narrowArena (pass : V3Pass) : StateArena :=
  (storeGroups .v3 (groupTicks (pass.algebra.entries pass.reader)) pass.lensArena).1

def lensStageOf (pass : V3Pass) : LensStage :=
  lensStage pass.abi pass.rpc.lens pass.arena pass.pools pass.wordRange pass.algebraPools
    pass.algebraIntegralPools

/-- The narrow Algebra wave, with the pools that the lens noted for it. -/
def algebraStageOf (pass : V3Pass) : StateArena × TickEnrichment :=
  enrichAlgebraTicks pass.abi pass.order pass.rpc.algebra pass.lensStageOf.arena
    (allAlgebra pass.arena pass.pools pass.wordRange pass.algebraPools pass.lensStageOf.fallback)
    pass.algebraIntegralPools

lemma sameShape_lensArena : SameShape pass.arena pass.lensArena := sameShape_storeGroups pass.overlayFits

lemma overlayFits_lensArena : pass.lensArena.OverlayFits := overlayFits_storeGroups pass.overlayFits

lemma sameShape_narrowArena : SameShape pass.arena pass.narrowArena :=
  sameShape_lensArena.trans (sameShape_storeGroups overlayFits_lensArena)

lemma overlayFits_narrowArena : pass.narrowArena.OverlayFits := overlayFits_storeGroups overlayFits_lensArena

/-- The Algebra wave over the labelled pools: it asks what it would ask of the arena before the pass. -/
lemma algebraStage_eq (h : pass.lensStageOf.fallback = []) :
    pass.algebraStageOf.1 = pass.narrowArena ∧
      pass.algebraStageOf.2.loaded =
        (storeGroups .v3 (groupTicks (pass.algebra.entries pass.reader)) pass.lensArena).2 ∧
      (pass.algebraStageOf.2.rpcFailed = false ↔
        ¬AlgebraWaveFailed pass.abi pass.order pass.rpc.algebra pass.arena pass.algebraTargets ∧
          ¬Overruns maxClTickInfoReads pass.algebra.windows ∧
          pass.algebraTargets.length ≤ maxAlgebraTickPools) := by
  have harena : pass.lensStageOf.arena = pass.lensArena := lensStage_eq.1
  have hshape : SameShape pass.arena pass.lensArena := sameShape_lensArena
  rcases @enrichAlgebraTicks_eq pass.abi pass.order pass.rpc.algebra pass.lensArena pass.algebraTargets
    pass.algebraIntegralPools with ⟨hstored, hloaded, hflag⟩
  have hbatch : algebraWaveBatch pass.abi pass.order pass.lensArena pass.algebraTargets =
      algebraWaveBatch pass.abi pass.order pass.arena pass.algebraTargets := by
    rw [algebraWaveBatch, algebraWaveBatch, algebraWaveTargets_congr hshape]
  have hwave := algebraWave_congr hshape pass.abi pass.order pass.rpc.algebra pass.algebraTargets
  rw [algebraStageOf, harena, h]
  refine ⟨?_, ?_, ?_⟩
  · rw [← algebraTargets, hstored, hwave]
    rfl
  · rw [← algebraTargets, hloaded, hwave]
    rfl
  · rw [← algebraTargets, hflag, algebraWaveFailed_congr hshape, hbatch]
    have hwindows : algebraWaveWindows pass.abi pass.order pass.rpc.algebra pass.lensArena pass.algebraTargets =
        pass.algebra.windows := congrArg Wave.windows hwave
    rw [hwindows]
    refine and_congr_right fun _ => and_congr_right fun _ => ?_
    exact ⟨fun hor => hor.elim length_le_of_no_words id, Or.inr⟩

/-- The flags of the narrow waves say what they are said to. -/
lemma flags_iff : (pass.lensStageOf.rpcFailed = false ∧ pass.lensStageOf.incompletePools = 0) ∧
    pass.algebraStageOf.2.rpcFailed = false ↔ pass.NarrowClear := by
  have hlens := (@lensStage_eq pass.abi pass.rpc.lens pass.arena pass.pools pass.wordRange pass.algebraPools
    pass.algebraIntegralPools).2.2
  have hflags : pass.lensStageOf.rpcFailed = false ∧ pass.lensStageOf.incompletePools = 0 ↔
      ¬pass.rpc.lens.Failed (batch (lensRequests pass.abi pass.arena pass.wordRange pass.lensPools)) ∧
        pass.lens.Complete pass.abi := hlens.1
  rw [hflags]
  constructor
  · rintro ⟨⟨hbatch, hwords⟩, halgebra⟩
    have hfallback : pass.lensStageOf.fallback = [] := hlens.2 hbatch hwords
    rcases (algebraStage_eq hfallback).2.2.mp halgebra with ⟨hbatches, hbudget, hcount⟩
    exact ⟨hbatch, hwords, hbatches, hbudget, hcount⟩
  · intro h
    have hfallback : pass.lensStageOf.fallback = [] := hlens.2 h.lensBatch h.lensWords
    exact ⟨⟨h.lensBatch, h.lensWords⟩,
      (algebraStage_eq hfallback).2.2.mpr ⟨h.algebraBatches, h.algebraBudget, h.algebraPools⟩⟩

lemma fallback_of_clear (h : pass.NarrowClear) : pass.lensStageOf.fallback = [] :=
  (@lensStage_eq pass.abi pass.rpc.lens pass.arena pass.pools pass.wordRange pass.algebraPools
    pass.algebraIntegralPools).2.2.2 h.lensBatch h.lensWords

/-- The narrow replies leave a pool without ticks if they show none. -/
lemma tickless_narrowArena :
    Tickless .v3 pass.narrowArena i ↔ Tickless .v3 pass.arena i ∧ pass.NarrowNothing i := by
  rw [narrowArena, tickless_storeEntries overlayFits_lensArena, lensArena,
    tickless_storeGroups pass.overlayFits LensWave.groups_ne_nil, and_assoc]
  rfl

end V3Pass

end PolygonArb

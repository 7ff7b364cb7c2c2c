import PolygonArb.Pipeline.TickWaves

/-!
# Depth at the price

When the budget of reads runs out in the middle of a pool, the ticks that are kept should be those nearest to the
current one.  The words of a window are visited from the centre outwards, but the bits of each of them upwards, so
at and below the price the ticks of the last word are taken from the far end: the kept ticks have a hole if and
only if the reads run out there (`capped_hydration_depth`).
-/

namespace PolygonArb

open CenterOut Word ByteFormat

/-- The ticks that a pool holds. -/
def heldTicks (family : ClFamily) (arena : StateArena) (i : PoolIndex) : List ℤ :=
  ((clPool family arena i).map fun s => s.ticks.map V3Tick.tick).getD []

/-- The ticks that the budget lets a window keep, in turn with the windows ahead of it. -/
def keptTicks {κ : Type} [DecidableEq κ] (pre : List (PoolWindow κ)) (window : PoolWindow κ)
    (post : List (PoolWindow κ)) : List ℤ :=
  ticksOf (readTurns maxClTickInfoReads (pre ++ window :: post) []).1 window.owner

/-- The reads that are left for a window do not run out in the part of a word at or below the tick. -/
def PoolWindow.SparesPrice {κ : Type} (window : PoolWindow κ) (tick : ℤ) (left : ℕ) : Prop :=
  ∀ offset < window.wordCount, ¬(window.ticksAhead offset < left ∧
    left < window.ticksAhead offset + (window.block offset).countP fun t => t ≤ tick)

/-- Every read that was queued is answered with a tick that has liquidity. -/
def Wave.AllLive {κ : Type} (wave : Wave κ) (reader : TickReader κ) : Prop :=
  (queuedReads wave.windows).length = wave.states.length ∧
    ∀ pair ∈ (queuedReads wave.windows).zip wave.states, (reader.entry pair.1 pair.2).isSome

/-- The window of the target is centred on the current tick of its pool. -/
def AlgebraTarget.CentredIn (target : AlgebraTarget) (arena : StateArena) (wordRange : ℤ) : Prop :=
  ∃ s, clPool .v3 arena target.idx = some s ∧ target.spacing = s.tickSpacing ∧
    target.wordMin = clTickBitmapCenterWord s.tick s.tickSpacing - wordRange ∧
    target.wordMax = clTickBitmapCenterWord s.tick s.tickSpacing + wordRange

section Kept

variable {κ : Type} {window : PoolWindow κ} {tick : ℤ}

/-- No tick of a window is visited twice. -/
lemma nodup_ticks (window : PoolWindow κ) : window.ticks.Nodup := by
  have horder : (clBitmapCenterOutOffsets window.wordCount).Nodup :=
    (perm_centerOut window.wordCount).nodup_iff.mpr List.nodup_range
  rw [PoolWindow.ticks, List.nodup_flatMap]
  refine ⟨fun offset _ => ?_, horder.imp fun {i j} hne => ?_⟩
  · rw [PoolWindow.block]
    cases window.words offset with
    | none => exact List.nodup_nil
    | some bitmap => exact (sorted_wordTicks _ _ bitmap).imp fun {a b} h => h.ne
  · intro t hi hj
    rcases mem_block hi with ⟨bitmap, -, hi⟩
    rcases mem_block hj with ⟨bitmap', -, hj⟩
    rcases mem_wordTicks.mp hi with ⟨bit, hbit, -, heq, -⟩
    rcases mem_wordTicks.mp hj with ⟨bit', hbit', -, heq', -⟩
    rcases Nat.lt_or_gt_of_ne hne with hlt | hgt
    · have h := @tick_lt_tick (window.wordMin + i) window.spacing bit bit' (window.wordMin + j) (by omega)
      omega
    · have h := @tick_lt_tick (window.wordMin + j) window.spacing bit' bit (window.wordMin + i) (by omega)
      omega

lemma ticks_eq_nil_of_empty (h : window.wordCount = 0) : window.ticks = [] := by
  rw [PoolWindow.ticks, h]
  rfl

variable [DecidableEq κ] {budget : ℕ} {pre post : List (PoolWindow κ)}

/-- The ticks read for a pool have no hole at the current tick if and only if the reads that the pools ahead leave
for it do not run out at or below that tick. -/
theorem noHole_readTurns (hnodup : ((pre ++ window :: post).map PoolWindow.owner).Nodup)
    (hcentred : window.wordCount = 0 ∨ window.CenteredAt tick) :
    NoHole tick window.ticks (ticksOf (readTurns budget (pre ++ window :: post) []).1 window.owner) ↔
      window.SparesPrice tick (budget - (pre.flatMap PoolWindow.ticks).length) := by
  rw [ticksOf_readTurns hnodup]
  rcases hcentred with hempty | hcentred
  · simp [ticks_eq_nil_of_empty hempty, NoHole, PoolWindow.SparesPrice, hempty]
  · exact noHole_take_iff hcentred _

lemma ticksOf_eq_map_filter (calls : List (κ × ℤ)) (owner : κ) :
    ticksOf calls owner = (calls.filter fun call => call.1 = owner).map Prod.snd := by
  induction calls with
  | nil => rfl
  | cons call calls ih =>
      rw [ticksOf] at ih ⊢
      by_cases h : call.1 = owner
      · simp [h, ih]
      · simp [h, ih]

/-- Where every owner has its slot, the reads of a slot are those of its owner. -/
lemma ticksOf_eq_of_slot {ι : Type} [DecidableEq ι] {slot : κ → ι} {windows : List (PoolWindow κ)}
    (hslots : (windows.map fun window => slot window.owner).Nodup) (hmem : window ∈ windows) {n : ℕ} :
    (((wantedReads windows).take n).filter fun call => slot call.1 = slot window.owner).map Prod.snd =
      ticksOf ((wantedReads windows).take n) window.owner := by
  rw [ticksOf_eq_map_filter]
  congr 1
  refine List.filter_congr fun call hcall => ?_
  rcases List.mem_flatMap.mp (List.mem_of_mem_take hcall) with ⟨other, hother, hin⟩
  rcases List.mem_map.mp hin with ⟨t, -, rfl⟩
  refine decide_eq_decide.mpr ⟨fun heq => ?_, fun heq => by rw [heq]⟩
  rw [List.inj_on_of_nodup_map hslots hother hmem heq]

end Kept

section Held

variable {κ : Type} {wave : Wave κ} {reader : TickReader κ} {family : ClFamily} {arena : StateArena}
  {i : PoolIndex} {s : ConcentratedLiquidityPoolState}

/-- A pool without ticks holds those that were read for it, once they are all answered. -/
theorem mem_heldTicks_store (hfits : arena.OverlayFits) (hs : clPool family arena i = some s)
    (hempty : s.ticks = []) (hall : wave.AllLive reader)
    (hnodup : (((queuedReads wave.windows).filter fun call => reader.slot call.1 = i).map Prod.snd).Nodup)
    (t : ℤ) :
    t ∈ heldTicks family (storeGroups family (groupTicks (wave.entries reader)) arena).1 i ↔
      t ∈ ((queuedReads wave.windows).filter fun call => reader.slot call.1 = i).map Prod.snd := by
  have hslot : HasSlot arena i := by
    by_contra hnot
    rw [clPool_of_not_hasSlot hfits hnot] at hs
    cases hs
  have hentries : (entriesOf (wave.entries reader) i).map V3Tick.tick =
      ((queuedReads wave.windows).filter fun call => reader.slot call.1 = i).map Prod.snd :=
    map_entriesOf_reads reader.slot_entry hall.1 hall.2
  rw [← hentries] at hnodup ⊢
  rw [heldTicks, clPool_storeGroups _ hslot, hs]
  split_ifs with hnone
  · simp [hempty, hnone]
  · simp only [Option.map_some, Option.getD_some, List.mem_map]
    rcases finalizeClTicks_of_nodup hnodup with ⟨-, hmem⟩
    simp only [hmem]

/-- What a wave keeps of a window and stores for its pool. -/
theorem depth_wave [DecidableEq κ] {pre post : List (PoolWindow κ)} {window : PoolWindow κ}
    (hwindows : wave.windows = pre ++ window :: post)
    (hslots : (wave.windows.map fun window => reader.slot window.owner).Nodup)
    (hcentred : window.wordCount = 0 ∨ window.CenteredAt s.tick)
    (hs : clPool family arena (reader.slot window.owner) = some s) :
    (NoHole s.tick window.ticks (keptTicks pre window post) ↔
      window.SparesPrice s.tick (maxClTickInfoReads - (pre.flatMap PoolWindow.ticks).length)) ∧
    (arena.OverlayFits → s.ticks = [] → wave.AllLive reader → ∀ t,
      t ∈ heldTicks family (storeGroups family (groupTicks (wave.entries reader)) arena).1
          (reader.slot window.owner) ↔
        t ∈ keptTicks pre window post) := by
  have hmem : window ∈ wave.windows := by
    rw [hwindows]
    exact List.mem_append_right pre List.mem_cons_self
  have howners : ((pre ++ window :: post).map PoolWindow.owner).Nodup := by
    rw [← hwindows]
    refine List.Nodup.of_map reader.slot ?_
    rw [List.map_map]
    exact hslots
  have hkept : ((queuedReads wave.windows).filter fun call =>
        reader.slot call.1 = reader.slot window.owner).map Prod.snd = keptTicks pre window post := by
    rw [keptTicks, calls_readTurns, ← hwindows]
    exact ticksOf_eq_of_slot hslots hmem
  refine ⟨noHole_readTurns howners hcentred, fun hfits hempty hall t => ?_⟩
  rw [mem_heldTicks_store hfits hs hempty hall ?_ t, hkept]
  rw [hkept, keptTicks, ticksOf_readTurns howners]
  exact (nodup_ticks window).sublist (List.take_sublist _ _)

end Held

/-! ## The windows of the two families -/

section Families

variable {keccak256 : List Byte → BitVec 256} {abi : TickAbi} {order : TieOrder} {rpc : BitmapRpc}
  {arena : StateArena} {wordRange : ℤ} {s : ConcentratedLiquidityPoolState}

section V4

variable {targets : List (PoolIndex × PoolId)} {window : PoolWindow (PoolIndex × PoolId)}
  {pre post : List (PoolWindow (PoolIndex × PoolId))}

lemma nodup_slots_v4Wave (h : (targets.map Prod.fst).Nodup) :
    ((v4WaveWindows keccak256 order rpc arena targets wordRange).map fun window => window.owner.1).Nodup := by
  have hperm := (owners_v4Windows keccak256 order arena wordRange targets
    (rpc.words.answers (batch (v4Requests keccak256 arena wordRange targets)))).map Prod.fst
  rw [List.map_map] at hperm
  exact hperm.nodup_iff.mpr (h.sublist (List.filter_sublist.map _))

/-- The window of a V4 pool is centred on its current tick. -/
lemma centredAt_v4Wave (h : window ∈ v4WaveWindows keccak256 order rpc arena targets wordRange)
    (hs : clPool .v4 arena window.owner.1 = some s) : window.wordCount = 0 ∨ window.CenteredAt s.tick := by
  rcases mem_v4Windows h with ⟨target, -, s', hs', hwindow⟩
  rw [hwindow.owner, hs', Option.some_inj] at hs
  subst hs
  rcases lt_or_ge wordRange 0 with hneg | hpos
  · left
    rw [hwindow.wordCount]
    omega
  · right
    rw [PoolWindow.CenteredAt, hwindow.wordMin, hwindow.wordCount]
    omega

/-- A pool that holds ticks after the first wave keeps them: only pools without any are read again. -/
lemma heldTicks_enrichV4Ticks (wideRpc : BitmapRpc) (allowWiden : Bool) {i : PoolIndex}
    (hheld : heldTicks .v4 (enrichV4TicksOnce keccak256 order rpc arena targets wordRange).1 i ≠ []) :
    heldTicks .v4 (enrichV4Ticks keccak256 order rpc wideRpc arena targets wordRange allowWiden).arena i =
      heldTicks .v4 (enrichV4TicksOnce keccak256 order rpc arena targets wordRange).1 i := by
  have hnarrow := @v4Narrow_eq keccak256 order arena wordRange targets rpc
  rw [enrichV4Ticks]
  cases hrun : v4Narrow keccak256 order rpc arena targets wordRange with
  | error report =>
      rw [hrun] at hnarrow
      rw [hnarrow]
  | ok narrow =>
      rw [hrun] at hnarrow
      dsimp only at hnarrow ⊢
      rw [heldTicks, clPool_enrichV4TicksOnce_of_not_mem, hnarrow]
      · rfl
      · intro hwide
        split_ifs at hwide
        · rcases List.mem_map.mp hwide with ⟨target, htarget, rfl⟩
          rcases mem_wideTargets htarget with ⟨-, s, hs, hnil⟩
          rw [hnarrow] at hs
          exact hheld (by rw [heldTicks, hs, Option.map_some, Option.getD_some, hnil, List.map_nil])
        · cases hwide

/-- The pass leaves what the first wave does, where that is something. -/
lemma mem_heldTicks_enrichV4Ticks {i : PoolIndex} {kept : List ℤ}
    (h : ∀ t, t ∈ heldTicks .v4 (enrichV4TicksOnce keccak256 order rpc arena targets wordRange).1 i ↔ t ∈ kept)
    (hkept : kept ≠ []) (wideRpc : BitmapRpc) (allowWiden : Bool) (t : ℤ) :
    t ∈ heldTicks .v4
        (enrichV4Ticks keccak256 order rpc wideRpc arena targets wordRange allowWiden).arena i ↔ t ∈ kept := by
  rcases List.exists_mem_of_ne_nil _ hkept with ⟨near, hnear⟩
  rw [heldTicks_enrichV4Ticks wideRpc allowWiden (List.ne_nil_of_mem ((h near).mpr hnear))]
  exact h t

end V4

section Algebra

variable {targets : List AlgebraTarget} {integralPools : Finset Address} {window : PoolWindow (Address × PoolIndex)}

lemma mem_algebraWaveWindows (h : window ∈ algebraWaveWindows abi order rpc arena targets) :
    ∃ target ∈ targets, window.owner = (target.pool, target.idx) ∧ window.spacing = target.spacing ∧
      window.wordMin = target.wordMin ∧ window.wordCount = (target.wordMax - target.wordMin + 1).toNat := by
  rcases List.mem_map.mp h with ⟨span, hspan, rfl⟩
  rcases (exists_of_forall₂ (covers_batch _)).1 span hspan with ⟨request, hrequest, hinfo, hstop, -⟩
  rcases List.mem_map.mp hrequest with ⟨target, htarget, rfl⟩
  refine ⟨target, (perm_byLiquidity order _ _).mem_iff.mp (List.mem_of_mem_take htarget), ?_⟩
  rw [algebraWindow, hinfo, hstop]
  refine ⟨rfl, rfl, rfl, ?_⟩
  simp [wordSpan]

lemma nodup_slots_algebraWave (h : (targets.map AlgebraTarget.idx).Nodup) :
    ((algebraWaveWindows abi order rpc arena targets).map fun window => window.owner.2).Nodup := by
  have hslots : (algebraWaveWindows abi order rpc arena targets).map (fun window => window.owner.2) =
      (algebraWaveTargets order arena targets).map AlgebraTarget.idx := by
    have hinfo := map_info_layOut (algebraRequests abi (algebraWaveTargets order arena targets)) 0
    rw [algebraRequests, List.map_map] at hinfo
    rw [algebraWaveWindows, algebraWindows, List.map_map]
    have hmap := congrArg (List.map AlgebraTarget.idx) hinfo
    rw [List.map_map, List.map_map] at hmap
    exact hmap
  rw [hslots]
  have hranked := ((perm_byLiquidity order (fun target : AlgebraTarget =>
    ((clPool .v3 arena target.idx).map fun s => s.liquidity).getD 0) targets).map
      AlgebraTarget.idx).nodup_iff.mpr h
  exact hranked.sublist ((List.take_sublist _ _).map _)

lemma centredAt_algebraWave (hcentred : ∀ target ∈ targets, target.CentredIn arena wordRange)
    (h : window ∈ algebraWaveWindows abi order rpc arena targets)
    (hs : clPool .v3 arena window.owner.2 = some s) : window.wordCount = 0 ∨ window.CenteredAt s.tick := by
  rcases mem_algebraWaveWindows h with ⟨target, htarget, howner, hspacing, hmin, hcount⟩
  rcases hcentred target htarget with ⟨s', hs', hspacing', hmin', hmax'⟩
  rw [howner, hs', Option.some_inj] at hs
  subst hs
  rcases lt_or_ge wordRange 0 with hneg | hpos
  · left
    omega
  · right
    rw [PoolWindow.CenteredAt, hspacing, hspacing', hmin, hmin']
    omega

end Algebra

/-- In either family, what the budget lets a pool keep has no hole at the current tick if and only if its reads do
not run out in the part of a word at or below that tick; and what is kept is what the pool holds, once the reads
are answered.  The second wave of the V4 pass leaves the pools alone that keep ticks in the first. -/
theorem capped_hydration_depth (order : TieOrder) (rpc : BitmapRpc) (arena : StateArena) (wordRange : ℤ) :
    (∀ (keccak256 : List Byte → BitVec 256) (targets : List (PoolIndex × PoolId))
      (pre post : List (PoolWindow (PoolIndex × PoolId))) (window : PoolWindow (PoolIndex × PoolId))
      (s : V4PoolState),
      (targets.map Prod.fst).Nodup →
      v4WaveWindows keccak256 order rpc arena targets wordRange = pre ++ window :: post →
      clPool .v4 arena window.owner.1 = some s →
        (NoHole s.tick window.ticks (keptTicks pre window post) ↔
          window.SparesPrice s.tick (maxClTickInfoReads - (pre.flatMap PoolWindow.ticks).length)) ∧
        (arena.OverlayFits → s.ticks = [] →
          (v4Wave keccak256 order rpc arena targets wordRange).AllLive v4Reader →
          (∀ t, t ∈ heldTicks .v4 (enrichV4TicksOnce keccak256 order rpc arena targets wordRange).1
              window.owner.1 ↔
            t ∈ keptTicks pre window post) ∧
          (keptTicks pre window post ≠ [] →
            ∀ (wideRpc : BitmapRpc) (allowWiden : Bool) (t : ℤ), t ∈ heldTicks .v4 (enrichV4Ticks
                keccak256 order rpc wideRpc arena targets wordRange allowWiden).arena window.owner.1 ↔
              t ∈ keptTicks pre window post))) ∧
    ∀ (abi : TickAbi) (targets : List AlgebraTarget) (integralPools : Finset Address)
      (pre post : List (PoolWindow (Address × PoolIndex))) (window : PoolWindow (Address × PoolIndex))
      (s : V3PoolState),
      (targets.map AlgebraTarget.idx).Nodup →
      (∀ target ∈ targets, target.CentredIn arena wordRange) →
      algebraWaveWindows abi order rpc arena targets = pre ++ window :: post →
      clPool .v3 arena window.owner.2 = some s →
        (NoHole s.tick window.ticks (keptTicks pre window post) ↔
          window.SparesPrice s.tick (maxClTickInfoReads - (pre.flatMap PoolWindow.ticks).length)) ∧
        (arena.OverlayFits → s.ticks = [] →
          (algebraWave abi order rpc arena targets).AllLive (algebraReader abi integralPools) →
          ∀ t, t ∈ heldTicks .v3 (enrichAlgebraTicks abi order rpc arena targets integralPools).1
              window.owner.2 ↔
            t ∈ keptTicks pre window post) := by
  constructor
  · intro keccak256 targets pre post window s hnodup hwindows hs
    have hmem : window ∈ v4WaveWindows keccak256 order rpc arena targets wordRange := by
      rw [hwindows]
      exact List.mem_append_right pre List.mem_cons_self
    have hwave := @depth_wave _ (v4Wave keccak256 order rpc arena targets wordRange) v4Reader .v4 arena s _ pre
      post window hwindows (nodup_slots_v4Wave hnodup) (centredAt_v4Wave hmem hs) hs
    rw [← enrichV4TicksOnce_eq.1] at hwave
    refine ⟨hwave.1, fun hfits hempty hall => ?_⟩
    have honce := hwave.2 hfits hempty hall
    exact ⟨honce, mem_heldTicks_enrichV4Ticks honce⟩
  · intro abi targets integralPools pre post window s hnodup hcentred hwindows hs
    have hmem : window ∈ algebraWaveWindows abi order rpc arena targets := by
      rw [hwindows]
      exact List.mem_append_right pre List.mem_cons_self
    rw [enrichAlgebraTicks_eq.1]
    exact @depth_wave _ (algebraWave abi order rpc arena targets) (algebraReader abi integralPools) .v3 arena s _
      pre post window hwindows (nodup_slots_algebraWave hnodup) (centredAt_algebraWave hcentred hmem hs) hs

end Families

section Example

/-- A pool in the middle of dense ticks. -/
def densePool : V4PoolState :=
  { sqrtPriceX96 := 79228162514264337593543950336#256, tick := 0, liquidity := 5, fee := 100#256,
    tickSpacing := 1, ticks := [], unlocked := true, feeProtocol := 0, observationCardinality := 1 }

/-- The only pool, in either family. -/
def loneArena (pool : PoolState) : StateArena where
  inner := { ArenaInner.empty with
    pools := [.new pool]
    poolAddresses := [1]
    addressToPool := fun address => if address = 1 then some 0 else none }
  hotOverlay := []
  hotRevisions := []

/-- The word of the current tick has one bit set, every other word all of them. -/
def cutWord (offset : ℕ) : U256 := if offset = 10 then 1 else BitVec.allOnes 256

/-- The same, with no bit in the fourth word above. -/
def denseWord (offset : ℕ) : U256 := if offset = 14 then 0 else cutWord offset

/-- A node with the same answer to every call. -/
def constantCalls (reply : List Byte) : Multicall where
  run items := .ok (items.map fun _ => some reply)
  length_run := fun h => by
    cases h
    exact List.length_map _

/-- A node that answers the reads of words by their place in the batch, and those of ticks with liquidity. -/
def denseRpc (word : ℕ → U256) (tick : List Byte) : BitmapRpc where
  words :=
    { run := fun items => .ok ((List.range items.length).map fun k => some (toBe 32 (word k).toNat))
      length_run := fun h => by
        cases h
        simp }
  ticks := constantCalls tick

def identityOrder : TieOrder := ⟨fun xs => xs, fun xs => List.Perm.refl xs⟩

def v4TickReply : List Byte := toBe 32 (5 * 2 ^ 128 + 5)

def algebraTickReply : List Byte := toBe 32 5 ++ toBe 32 5 ++ List.replicate 160 0 ++ toBe 32 1

/-- The window of the pool, 21 words around the current one. -/
def denseWindow {κ : Type} (owner : κ) (word : ℕ → U256) : PoolWindow κ where
  owner := owner
  spacing := 1
  wordMin := -10
  wordCount := 21
  words offset := if offset < 21 then some (word offset) else none

variable {word : ℕ → U256}

lemma decodeTickTable_toBe (raw : U256) : contractAbi.decodeTickTable (toBe 32 raw.toNat) = some raw := by
  have hword : abiWordAt (toBe 32 raw.toNat) 0 = some raw.toNat := by
    rw [abiWordAt, if_pos (by simp), Nat.mul_zero, List.drop_zero, List.take_of_length_le (by simp),
      ofBe_toBe (by have := raw.isLt; omega)]
  show (abiWordAt (toBe 32 raw.toNat) 0).map (BitVec.ofNat 256) = some raw
  rw [hword, Option.map_some, BitVec.ofNat_toNat, BitVec.setWidth_eq]

lemma answer_dense {decode : List Byte → Option U256}
    (hdecode : ∀ raw : U256, decode (toBe 32 raw.toNat) = some raw) (offset : ℕ) :
    (((List.range 21).map fun k => some (toBe 32 (word k).toNat))[offset]?.join).bind decode =
      if offset < 21 then some (word offset) else none := by
  rw [List.getElem?_map]
  by_cases hin : offset < 21
  · rw [List.getElem?_range hin, if_pos hin, Option.map_some, Option.join_some, Option.bind_some, hdecode]
  · rw [List.getElem?_eq_none (by rw [List.length_range]; omega), if_neg hin]
    rfl

lemma windows_dense_v4 (keccak256 : List Byte → BitVec 256) (tick : List Byte) :
    v4WaveWindows keccak256 identityOrder (denseRpc word tick) (loneArena (.v4 densePool)) [(0, 1)] 10 =
      [denseWindow (0, 1) word] := by
  have hspans : layOut (v4Requests keccak256 (loneArena (.v4 densePool)) 10 [(0, 1)]) 0 =
      [⟨⟨0, 1, 1, -10, 5⟩, 0, 21⟩] := rfl
  have hwords : (denseRpc word tick).words.answers
      (batch (v4Requests keccak256 (loneArena (.v4 densePool)) 10 [(0, 1)])) =
        (List.range 21).map fun k => some (toBe 32 (word k).toNat) := rfl
  rw [v4WaveWindows, v4Windows, hspans, hwords, TieOrder.byLiquidity]
  simp only [identityOrder, List.mergeSort_singleton, List.map_cons, List.map_nil, v4Window, denseWindow]
  congr 2
  funext offset
  rw [Span.answer, Nat.zero_add, answer_dense decodeAbiWord_toBe]

def loneTarget : AlgebraTarget := ⟨1, 0, 1, -10, 10⟩

lemma windows_dense_algebra (tick : List Byte) :
    algebraWaveWindows contractAbi identityOrder (denseRpc word tick) (loneArena (.v3 densePool))
      [loneTarget] = [denseWindow (1, 0) word] := by
  have htargets : algebraWaveTargets identityOrder (loneArena (.v3 densePool)) [loneTarget] = [loneTarget] := by
    rw [algebraWaveTargets, algebraRanked, TieOrder.byLiquidity]
    simp only [identityOrder, List.mergeSort_singleton]
    rfl
  have hspans : layOut (algebraRequests contractAbi [loneTarget]) 0 = [⟨loneTarget, 0, 21⟩] := rfl
  have hwords : (denseRpc word tick).words.answers (batch (algebraRequests contractAbi [loneTarget])) =
      (List.range 21).map fun k => some (toBe 32 (word k).toNat) := rfl
  rw [algebraWaveWindows, algebraWaveBatch, htargets, algebraWindows, hspans, hwords]
  simp only [List.map_cons, List.map_nil, algebraWindow, denseWindow]
  congr 2
  funext offset
  rw [Span.answer, Nat.zero_add]
  exact answer_dense decodeTickTable_toBe offset

/-- A node with one answer for every tick, if that is one with liquidity. -/
lemma allLive_of_constant {κ : Type} {wave : Wave κ} {reader : TickReader κ} (reply : List Byte)
    (hstates : wave.states = (queuedReads wave.windows).map fun _ => some reply)
    (hlive : ∀ call, (reader.entry call (some reply)).isSome) : wave.AllLive reader := by
  rw [Wave.AllLive, hstates]
  refine ⟨(List.length_map _).symm, fun pair hpair => ?_⟩
  rcases List.mem_map.mp (List.of_mem_zip hpair).2 with ⟨-, -, heq⟩
  rw [← heq]
  exact hlive pair.1

lemma allLive_dense_v4 (keccak256 : List Byte → BitVec 256) :
    (v4Wave keccak256 identityOrder (denseRpc word v4TickReply) (loneArena (.v4 densePool)) [(0, 1)]
      10).AllLive v4Reader := by
  refine allLive_of_constant v4TickReply (List.map_map ..) fun call => ?_
  have hword : decodeAbiWord v4TickReply = some (BitVec.ofNat 256 (5 * 2 ^ 128 + 5)) := by decide +kernel
  have hpair : decodeV4TickLiquidity (BitVec.ofNat 256 (5 * 2 ^ 128 + 5)) = (5, 5) := by decide +kernel
  show (v4TickEntry call (some v4TickReply)).isSome
  rw [v4TickEntry, Option.bind_some, hword, Option.bind_some, hpair]
  rfl

lemma allLive_dense_algebra :
    (algebraWave contractAbi identityOrder (denseRpc word algebraTickReply) (loneArena (.v3 densePool))
      [loneTarget]).AllLive (algebraReader contractAbi ∅) := by
  refine allLive_of_constant algebraTickReply (List.map_map ..) fun call => ?_
  have htick : ((contractAbi.decodeTicks algebraTickReply).any fun state =>
      state.initialized && state.liquidityTotal != 0) = true := by decide +kernel
  rcases Option.any_eq_true _ _ |>.mp htick with ⟨state, hstate, hlive⟩
  rw [Bool.and_eq_true, bne_iff_ne] at hlive
  dsimp only [algebraReader]
  generalize algebraTickReply = reply at hstate ⊢
  simp [algebraTickEntry, decodeAlgebraTickEntry, hstate, hlive.1, hlive.2]

/-- The window where reads run out below the price. -/
def holeWindow : PoolWindow (PoolIndex × PoolId) := denseWindow (0, 1) denseWord

/-- The pool runs out of reads in the word five below the current one: of its 256 ticks the lowest 255 are kept,
the nearest is not, and the pool holds what is kept. -/
theorem dense_leaves_hole :
    ¬NoHole densePool.tick holeWindow.ticks
      (heldTicks .v4 (enrichV4Ticks (fun _ => 0) identityOrder (denseRpc denseWord v4TickReply)
        (denseRpc denseWord v4TickReply) (loneArena (.v4 densePool)) [(0, 1)] 10 true).arena 0) := by
  have hcentred : holeWindow.CenteredAt densePool.tick := by
    rw [PoolWindow.CenteredAt]
    decide
  have hdepth := @depth_wave _ (v4Wave (fun _ => 0) identityOrder (denseRpc denseWord v4TickReply)
    (loneArena (.v4 densePool)) [(0, 1)] 10) v4Reader .v4 (loneArena (.v4 densePool)) densePool _ [] []
    holeWindow (windows_dense_v4 _ v4TickReply) (nodup_slots_v4Wave (List.nodup_singleton _))
    (Or.inr hcentred) rfl
  rw [List.flatMap_nil, List.length_nil, ← enrichV4TicksOnce_eq.1] at hdepth
  have hspares : ¬holeWindow.SparesPrice densePool.tick (maxClTickInfoReads - 0) := by
    have hrun : holeWindow.ticksAhead 5 = 1793 ∧
        (holeWindow.block 5).countP (fun t => t ≤ densePool.tick) = 256 := by decide +kernel
    intro hspares
    refine hspares 5 (by decide) ?_
    rw [hrun.1, hrun.2]
    exact ⟨by decide, by decide⟩
  have hhole := mt hdepth.1.mp hspares
  have hkept : keptTicks [] holeWindow [] ≠ [] := by
    intro hnil
    rw [hnil] at hhole
    exact hhole fun t ht => absurd ht List.not_mem_nil
  have hheld := mem_heldTicks_enrichV4Ticks (hdepth.2 (Nat.zero_le _) rfl (allLive_dense_v4 _)) hkept
    (denseRpc denseWord v4TickReply) true
  refine fun hno => hhole fun t ht m hm hbetween => (hheld m).mp (hno t ((hheld t).mpr ht) m hm hbetween)

/-- The windows where they run out above it. -/
def cutV4 : PoolWindow (PoolIndex × PoolId) := denseWindow (0, 1) cutWord

def cutAlgebra : PoolWindow (Address × PoolIndex) := denseWindow (1, 0) cutWord

lemma sparesPrice_cut {κ : Type} (owner : κ) :
    (denseWindow owner cutWord).SparesPrice densePool.tick maxClTickInfoReads := by
  have hrun : ∀ offset < 21, ¬((denseWindow () cutWord).ticksAhead offset < maxClTickInfoReads ∧
      maxClTickInfoReads < (denseWindow () cutWord).ticksAhead offset +
        ((denseWindow () cutWord).block offset).countP fun t => t ≤ densePool.tick) := by decide +kernel
  exact hrun

lemma ticks_cut {κ : Type} (owner : κ) : maxClTickInfoReads < (denseWindow owner cutWord).ticks.length := by
  have hrun : maxClTickInfoReads < (denseWindow () cutWord).ticks.length := by decide +kernel
  exact hrun

/-- One pool of each family, with more ticks in its window than the reads allow. -/
theorem capped_hydration_depth_cut :
    (maxClTickInfoReads < cutV4.ticks.length ∧
      NoHole densePool.tick cutV4.ticks (keptTicks [] cutV4 []) ∧
      ∀ t, t ∈ heldTicks .v4 (enrichV4Ticks (fun _ => 0) identityOrder (denseRpc cutWord v4TickReply)
            (denseRpc cutWord v4TickReply) (loneArena (.v4 densePool)) [(0, 1)] 10 true).arena 0 ↔
        t ∈ keptTicks [] cutV4 []) ∧
    maxClTickInfoReads < cutAlgebra.ticks.length ∧
      NoHole densePool.tick cutAlgebra.ticks (keptTicks [] cutAlgebra []) ∧
      ∀ t, t ∈ heldTicks .v3 (enrichAlgebraTicks contractAbi identityOrder (denseRpc cutWord algebraTickReply)
            (loneArena (.v3 densePool)) [loneTarget] ∅).1 0 ↔
        t ∈ keptTicks [] cutAlgebra [] := by
  have hv4 := (capped_hydration_depth identityOrder (denseRpc cutWord v4TickReply) (loneArena (.v4 densePool))
    10).1 (fun _ => 0) [(0, 1)] [] [] cutV4 densePool (List.nodup_singleton _) (windows_dense_v4 _ v4TickReply) rfl
  have hcentred : ∀ target ∈ [loneTarget], target.CentredIn (loneArena (.v3 densePool)) 10 := by
    intro target htarget
    rw [List.mem_singleton] at htarget
    subst htarget
    exact ⟨densePool, rfl, rfl, rfl, rfl⟩
  have halgebra := (capped_hydration_depth identityOrder (denseRpc cutWord algebraTickReply)
    (loneArena (.v3 densePool)) 10).2 contractAbi [loneTarget] ∅ [] [] cutAlgebra densePool
      (List.nodup_singleton _) hcentred (windows_dense_algebra algebraTickReply) rfl
  rw [List.flatMap_nil, List.length_nil] at hv4 halgebra
  have hkept : keptTicks [] cutV4 [] ≠ [] := by
    have howners : (([] ++ cutV4 :: []).map PoolWindow.owner).Nodup := List.nodup_singleton _
    rw [keptTicks, ticksOf_readTurns howners, Ne, List.take_eq_nil_iff]
    rintro (hfull | hnone)
    · exact absurd hfull (by decide)
    · have := ticks_cut cutV4.owner
      exact absurd (congrArg List.length hnone) (Nat.ne_of_gt ((Nat.zero_le _).trans_lt this))
  refine ⟨⟨ticks_cut _, hv4.1.mpr (sparesPrice_cut _), ?_⟩, ticks_cut _, halgebra.1.mpr (sparesPrice_cut _),
    halgebra.2 (Nat.zero_le _) rfl allLive_dense_algebra⟩
  exact (hv4.2 (Nat.zero_le _) rfl (allLive_dense_v4 _)).2 hkept _ true

end Example

end PolygonArb

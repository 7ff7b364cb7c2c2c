import PolygonArb.Pipeline.TickHydration

/-!
# Ticks of V3 pools

`enrich_v3_ticks` of `pipeline/tick_fetch.rs`: pools are read through the tick lens, those labelled Algebra
through their own bitmap and tick reads; pools that stay without ticks are read once more with a wider window.

The codec that the contract interfaces generate is a parameter, and so is every answer of the node.  A negative
`word_range` stops the pass at its first allocation, so it is a natural number here.
-/

namespace PolygonArb

open Word ByteFormat

/-- `TICK_LENS_POLYGON`. -/
def tickLensPolygon : Address := 0xbfd8137f7d1516d3ea5ca83523914859ec47f573#160

/-- Cap of the pools read through their own bitmaps in one wave (`MAX_ALGEBRA_TICK_POOLS`). -/
def maxAlgebraTickPools : ℕ := 32

structure PopulatedTick where
  tick : ℤ
  liquidityNet : ℤ
  liquidityGross : ℕ

/-- What `IAlgebraPool::ticks` returns, as far as it is looked at. -/
structure AlgebraTickState where
  liquidityTotal : ℕ
  liquidityDelta : ℤ
  initialized : Bool

/-- What `IAlgebraIntegralPool::ticks` returns, as far as it is looked at. -/
structure AlgebraIntegralTickState where
  liquidityTotal : U256
  liquidityDelta : ℤ

/-- The codec of the three contract interfaces. -/
structure TickAbi where
  getPopulatedTicksInWordCall : Address → BitVec 16 → List Byte
  decodePopulatedTicks : List Byte → Option (List PopulatedTick)
  tickTableCall : BitVec 16 → List Byte
  decodeTickTable : List Byte → Option U256
  ticksCall : ℤ → List Byte
  decodeTicks : List Byte → Option AlgebraTickState
  decodeIntegralTicks : List Byte → Option AlgebraIntegralTickState

/-- A pool to read through its own bitmap, with its window. -/
structure AlgebraTarget where
  pool : Address
  idx : PoolIndex
  spacing : ℤ
  wordMin : ℤ
  wordMax : ℤ

/-- The slot of an address that holds a V3 pool, with its state. -/
def v3Pool (arena : StateArena) (pool : Address) : Option (PoolIndex × V3PoolState) :=
  (arena.inner.addressToPool pool).bind fun idx => (clPool .v3 arena idx).map fun s => (idx, s)

/-- The V3 addresses whose state has no ticks. -/
def stillTicklessV3 (arena : StateArena) (pools : List Address) : List Address :=
  pools.filter fun pool => (v3Pool arena pool).any fun found => found.2.ticks.isEmpty

section Pass

variable (abi : TickAbi) (order : TieOrder)

/-! ## Through the tick lens -/

def tickLensItem (pool : Address) (word : ℤ) : MulticallItem :=
  ⟨tickLensPolygon, abi.getPopulatedTicksInWordCall pool (BitVec.ofInt 16 word)⟩

/-- The words to read for a pool. -/
def lensRequest (arena : StateArena) (wordRange : ℤ) (pool : Address) :
    Option (PoolIndex × List MulticallItem) :=
  (v3Pool arena pool).map fun (idx, s) =>
    (idx, (windowWords (clTickBitmapCenterWord s.tick s.tickSpacing) wordRange).map (tickLensItem abi pool))

def lensRequests (arena : StateArena) (wordRange : ℤ) (pools : List Address) :
    List (PoolIndex × List MulticallItem) :=
  pools.filterMap (lensRequest abi arena wordRange)

/-- The ticks of one word, if it was answered. -/
def lensWord (results : List (Option (List Byte))) (span : Span PoolIndex) (offset : ℕ) :
    Option (List PopulatedTick) :=
  (span.answer results offset).bind abi.decodePopulatedTicks

/-- A tick in the price range. -/
def PopulatedTick.entry (populated : PopulatedTick) : Option V3Tick :=
  if minTick ≤ populated.tick ∧ populated.tick ≤ maxTick then
    some ⟨populated.tick, populated.liquidityGross, populated.liquidityNet⟩
  else none

def lensTicks (results : List (Option (List Byte))) (span : Span PoolIndex) : List V3Tick :=
  ((List.range (span.stop - span.start)).flatMap fun offset =>
    (lensWord abi results span offset).getD []).filterMap PopulatedTick.entry

def lensComplete (results : List (Option (List Byte))) (span : Span PoolIndex) : Bool :=
  (List.range (span.stop - span.start)).all fun offset => (lensWord abi results span offset).isSome

def algebraFallbackTarget (arena : StateArena) (idx : PoolIndex) (wordRange : ℤ) : Option AlgebraTarget :=
  arena.inner.poolAddresses[idx]?.bind fun address =>
    (clPool .v3 arena idx).map fun s =>
      let centerWord := clTickBitmapCenterWord s.tick s.tickSpacing
      ⟨address, idx, s.tickSpacing, centerWord - wordRange, centerWord + wordRange⟩

/-- What the tick lens leaves; `fallback` are the pools to try through their own bitmaps. -/
structure LensStage where
  arena : StateArena
  updated : ℕ
  emptyPools : ℕ
  incompletePools : ℕ
  fallback : List AlgebraTarget
  rpcFailed : Bool

/-- The answers for one pool: partial depth beats none, and complete empty words are no reason to try Algebra. -/
def lensSpan (wordRange : ℤ) (results : List (Option (List Byte))) (stage : LensStage)
    (span : Span PoolIndex) : LensStage :=
  let ticks := lensTicks abi results span
  if lensComplete abi results span = false then
    let stage := { stage with incompletePools := stage.incompletePools + 1 }
    if ticks ≠ [] then
      let (arena, stored) := storeTicks .v3 stage.arena span.info (finalizeClTicks ticks)
      { stage with arena := arena, updated := stage.updated + stored }
    else
      { stage with
        fallback := stage.fallback ++ (algebraFallbackTarget stage.arena span.info wordRange).toList }
  else if ticks = [] then { stage with emptyPools := stage.emptyPools + 1 }
  else
    let (arena, stored) := storeTicks .v3 stage.arena span.info (finalizeClTicks ticks)
    { stage with arena := arena, updated := stage.updated + stored }

/-- The first wave of the pools without an Algebra label. -/
def lensStage (rpc : Multicall) (arena : StateArena) (pools : List Address) (wordRange : ℤ)
    (algebraPools algebraIntegralPools : Finset Address) : LensStage :=
  let requests := lensRequests abi arena wordRange (pools.filter fun pool => pool ∉ algebraPools)
  if batch requests = [] then ⟨arena, 0, 0, 0, [], false⟩
  else
    match rpc.run (batch requests) with
    | .ok results => (layOut requests 0).foldl (lensSpan abi wordRange results) ⟨arena, 0, 0, 0, [], false⟩
    | .error _ =>
        let labelled := pools.filter fun pool => pool ∈ algebraPools ∨ pool ∈ algebraIntegralPools
        ⟨arena, 0, 0, 0, labelled.filterMap fun pool =>
          (arena.inner.addressToPool pool).bind fun idx => algebraFallbackTarget arena idx wordRange, true⟩

/-- The second wave of the pools without a label: nothing is said of words that are missing
(`enrich_v3_tick_lens_only`). -/
def enrichV3TickLensOnly (rpc : Multicall) (arena : StateArena) (pools : List Address) (wordRange : ℤ) :
    StateArena × ℕ :=
  let requests := lensRequests abi arena wordRange pools
  if batch requests = [] then (arena, 0)
  else
    match rpc.run (batch requests) with
    | .error _ => (arena, 0)
    | .ok results =>
        storeGroups .v3 ((layOut requests 0).filterMap fun span =>
          if lensTicks abi results span = [] then none else some (span.info, lensTicks abi results span)) arena

/-! ## Through the bitmap of the pool -/

def tickTableItem (pool : Address) (word : ℤ) : MulticallItem :=
  ⟨pool, abi.tickTableCall (BitVec.ofInt 16 word)⟩

def algebraTickItem (owner : (Address × PoolIndex) × ℤ) : MulticallItem :=
  ⟨owner.1.1, abi.ticksCall owner.2⟩

/-- The pools with the most liquidity first. -/
def algebraRanked (arena : StateArena) (targets : List AlgebraTarget) : List AlgebraTarget :=
  order.byLiquidity (fun target => ((clPool .v3 arena target.idx).map fun s => s.liquidity).getD 0) targets

def algebraRequests (targets : List AlgebraTarget) : List (AlgebraTarget × List MulticallItem) :=
  targets.map fun target =>
    (target, (wordSpan target.wordMin target.wordMax).map (tickTableItem abi target.pool))

def algebraWindow (bitmaps : List (Option (List Byte))) (span : Span AlgebraTarget) :
    PoolWindow (Address × PoolIndex) where
  owner := (span.info.pool, span.info.idx)
  spacing := span.info.spacing
  wordMin := span.info.wordMin
  wordCount := span.stop - span.start
  words offset := (span.answer bitmaps offset).bind abi.decodeTickTable

def algebraWindows (targets : List AlgebraTarget) (bitmaps : List (Option (List Byte))) :
    List (PoolWindow (Address × PoolIndex)) :=
  (layOut (algebraRequests abi targets) 0).map (algebraWindow abi bitmaps)

def decodeAlgebraTickEntry (bytes : List Byte) (tick : ℤ) (integral : Bool) : Option V3Tick :=
  if integral then
    (abi.decodeIntegralTicks bytes).bind fun state =>
      if state.liquidityTotal.toNat < 2 ^ 128 ∧ state.liquidityTotal.toNat ≠ 0 then
        some ⟨tick, state.liquidityTotal.toNat, state.liquidityDelta⟩
      else none
  else
    (abi.decodeTicks bytes).bind fun state =>
      if state.initialized = false ∨ state.liquidityTotal = 0 then none
      else some ⟨tick, state.liquidityTotal, state.liquidityDelta⟩

/-- The layout that the label says first, then the other one. -/
def algebraTickEntry (integralPools : Finset Address) (owner : (Address × PoolIndex) × ℤ)
    (bytes : List Byte) : Option (PoolIndex × V3Tick) :=
  let preferIntegral : Bool := owner.1.1 ∈ integralPools
  ((decodeAlgebraTickEntry abi bytes owner.2 preferIntegral).or
    (decodeAlgebraTickEntry abi bytes owner.2 !preferIntegral)).map fun tick => (owner.1.2, tick)

def algebraTickEntries (integralPools : Finset Address) (owners : List ((Address × PoolIndex) × ℤ))
    (states : List (Option (List Byte))) : List (PoolIndex × V3Tick) :=
  (owners.zip states).filterMap fun (owner, bytes) => bytes.bind (algebraTickEntry abi integralPools owner)

/-- Answers that neither layout reads as a tick. -/
def algebraDecodeRejects (integralPools : Finset Address) (owners : List ((Address × PoolIndex) × ℤ))
    (states : List (Option (List Byte))) : ℕ :=
  (owners.zip states).countP fun (owner, bytes) =>
    bytes.any fun bytes => (algebraTickEntry abi integralPools owner bytes).isNone

/-- The pools whose turn queues nothing. -/
def noTickCalls : List (PoolWindow (Address × PoolIndex)) → List ((Address × PoolIndex) × ℤ) → ℕ
  | [], _ => 0
  | window :: windows, calls =>
      let (after, ended) := readTurn maxClTickInfoReads window calls
      (if ended ≠ .skipped ∧ after.length = calls.length then 1 else 0) + noTickCalls windows after

/-- A wave of Algebra pools (`enrich_algebra_ticks`). -/
def enrichAlgebraTicks (rpc : BitmapRpc) (arena : StateArena) (targets : List AlgebraTarget)
    (integralPools : Finset Address) : StateArena × TickEnrichment :=
  let ranked := algebraRanked order arena targets
  let truncated := decide (maxAlgebraTickPools < ranked.length)
  let ranked := ranked.take maxAlgebraTickPools
  let bitmapCalls := batch (algebraRequests abi ranked)
  if bitmapCalls = [] then (arena, .default)
  else
    match rpc.words.run bitmapCalls with
    | .error _ => (arena, { TickEnrichment.default with rpcFailed := true })
    | .ok bitmaps =>
        let windows := algebraWindows abi ranked bitmaps
        let (owners, turns) := readTurns maxClTickInfoReads windows []
        let idle := noTickCalls windows []
        let incomplete := turns.countP fun turn => turn.2.isCapped
        let capped := turns.any fun turn => turn.2.isCapped
        if owners = [] then
          (arena, { TickEnrichment.default with rpcFailed := truncated, algebraNoTickCalls := idle })
        else
          match rpc.ticks.run (owners.map (algebraTickItem abi)) with
          | .error _ => (arena, { TickEnrichment.default with rpcFailed := true, incompletePools := incomplete })
          | .ok states =>
              let (arena, updated) := storeGroups .v3
                (groupTicks (algebraTickEntries abi integralPools owners states)) arena
              (arena,
                { TickEnrichment.default with
                  loaded := updated
                  rpcFailed := capped || truncated
                  incompletePools := incomplete
                  algebraNoTickCalls := idle
                  algebraDecodeRejects := algebraDecodeRejects abi integralPools owners states })

/-! ## The pass -/

/-- The window of a pool that is labelled Algebra. -/
def algebraTarget (arena : StateArena) (wordRange : ℤ) (pool : Address) : Option AlgebraTarget :=
  (v3Pool arena pool).map fun (idx, s) =>
    let centerWord := clTickBitmapCenterWord s.tick s.tickSpacing
    ⟨pool, idx, s.tickSpacing, centerWord - wordRange, centerWord + wordRange⟩

/-- The labelled pools, then the fallbacks, each slot once. -/
def allAlgebra (arena : StateArena) (pools : List Address) (wordRange : ℤ) (algebraPools : Finset Address)
    (fallback : List AlgebraTarget) : List AlgebraTarget :=
  ((pools.filter fun pool => pool ∈ algebraPools).filterMap (algebraTarget arena wordRange) ++
    fallback).eraseDupsBy fun a b => a.idx == b.idx

/-- The pools of the second wave. -/
def v3WideTargets (arena : StateArena) (pools : List Address) : List Address :=
  (order.byLiquidity (fun pool => ((v3Pool arena pool).map fun found => found.2.liquidity).getD 0)
    (stillTicklessV3 arena pools).eraseDups).take maxWideTickPools

/-- What the second wave leaves. -/
structure V3Wide where
  arena : StateArena
  loaded : ℕ
  noTickCalls : ℕ
  decodeRejects : ℕ

/-- The second wave.  A label keeps a pool off the tick lens; a pool that was tried as Algebra without one is
read both ways. -/
def v3Widen (lensRpc : Multicall) (algebraRpc : BitmapRpc) (arena : StateArena) (wideTargets : List Address)
    (wordRange : ℤ) (algebraPools algebraIntegralPools : Finset Address) (attempted : List Address) : V3Wide :=
  let lensWide := wideTargets.filter fun pool => ¬(pool ∈ algebraPools ∨ pool ∈ algebraIntegralPools)
  let algebraWide := (wideTargets.filter fun pool =>
      (pool ∈ algebraPools ∨ pool ∈ algebraIntegralPools) ∨ pool ∈ attempted).filterMap fun pool =>
    (arena.inner.addressToPool pool).bind fun idx => algebraFallbackTarget arena idx wordRange
  let (arena, lensLoaded) := enrichV3TickLensOnly abi lensRpc arena lensWide wordRange
  let (arena, algebra) := enrichAlgebraTicks abi order algebraRpc arena algebraWide algebraIntegralPools
  ⟨arena, lensLoaded + algebra.loaded, algebra.algebraNoTickCalls, algebra.algebraDecodeRejects⟩

/-- Everything the node is asked in one pass. -/
structure V3Rpc where
  lens : Multicall
  algebra : BitmapRpc
  wideLens : Multicall
  wideAlgebra : BitmapRpc

/-- `enrich_v3_ticks`. -/
def enrichV3Ticks (rpc : V3Rpc) (arena : StateArena) (pools : List Address) (wordRange : ℕ)
    (algebraPools algebraIntegralPools : Finset Address) (allowWiden : Bool) : Hydration Address :=
  let lens := lensStage abi rpc.lens arena pools wordRange algebraPools algebraIntegralPools
  let algebraTargets := (pools.filter fun pool => pool ∈ algebraPools).filterMap (algebraTarget arena wordRange)
  if batch (lensRequests abi arena wordRange (pools.filter fun pool => pool ∉ algebraPools)) = [] ∧
      algebraTargets = [] then
    ⟨arena, .default, [], .none⟩
  else
    let targets := allAlgebra arena pools wordRange algebraPools lens.fallback
    let (narrowArena, algebra) := enrichAlgebraTicks abi order rpc.algebra lens.arena targets algebraIntegralPools
    let updated := lens.updated + algebra.loaded
    let wideTargets :=
      if updated < pools.length ∧ allowWiden = true ∧ wordRange < 48 then v3WideTargets order narrowArena pools
      else []
    let wide := v3Widen abi order rpc.wideLens rpc.wideAlgebra narrowArena wideTargets (wideRange wordRange)
      algebraPools algebraIntegralPools (targets.map AlgebraTarget.pool)
    let stillTickless := stillTicklessV3 wide.arena pools
    let needsUrlFallback :=
      !stillTickless.isEmpty && (lens.rpcFailed || algebra.rpcFailed || decide (0 < lens.incompletePools))
    { arena := wide.arena
      report :=
        { loaded := updated + wide.loaded
          rpcFailed := needsUrlFallback
          emptyPools := lens.emptyPools
          incompletePools := lens.incompletePools
          algebraLoaded := algebra.loaded
          algebraNoTickCalls := algebra.algebraNoTickCalls + wide.noTickCalls
          algebraDecodeRejects := algebra.algebraDecodeRejects + wide.decodeRejects }
      cleared := pools.filter fun pool => (v3Pool wide.arena pool).any fun found => !found.2.ticks.isEmpty
      cooldown := armCooldown stillTickless needsUrlFallback (decide (0 < lens.incompletePools)) allowWiden
        fun pool => decide (48 ≤ wordRange) || decide (pool ∈ wideTargets) }

end Pass

end PolygonArb

import PolygonArb.Lib.ByteFormat
import PolygonArb.Services.StateCache

/-!
# The partial pool cache

`services/partial_cache`: slim copies of pool prices that the log stream patches, and the flush that
merges them into the state cache.  A row is created by whichever comes first of a seed, a wake and a
log; it keeps the protocol tag it was created with, and the flush writes a row into a cached state of
that tag only.

`Stream` is the pair of caches with a record of what the stream has said: the last patch of each pool
and whether it came after the pool's last insertion.  Two properties of runs:

- `flush_shows_lastPatch`: a flushed pool shows its last patch, when no patch ever met a row of
  another protocol;
- `flush_keeps_price`: a flush leaves a pool alone that was inserted after its last patch, when no
  wake and no insertion left it pending with a row that differs from its state.
-/

namespace PolygonArb

open Word Transition ByteFormat

structure SlimPoolState where
  protocol : ProtocolType
  sqrtPriceX96 : U256
  liquidity : ℕ
  tick : ℤ
  reserve0 : U256
  reserve1 : U256
  patchedAtMs : ℕ
  activityCount : ℕ
  deriving DecidableEq

namespace SlimPoolState

def fromCl (protocol : ProtocolType) (sqrtPriceX96 : U256) (liquidity : ℕ) (tick : ℤ)
    (nowMs : ℕ) : SlimPoolState :=
  ⟨protocol, sqrtPriceX96, liquidity, tick, 0, 0, nowMs, 0⟩

def fromV3 (sqrtPriceX96 : U256) (liquidity : ℕ) (tick : ℤ) (nowMs : ℕ) : SlimPoolState :=
  fromCl .uniswapV3 sqrtPriceX96 liquidity tick nowMs

def fromV4 (sqrtPriceX96 : U256) (liquidity : ℕ) (tick : ℤ) (nowMs : ℕ) : SlimPoolState :=
  fromCl .uniswapV4 sqrtPriceX96 liquidity tick nowMs

def fromV2 (reserve0 reserve1 : U256) (nowMs : ℕ) : SlimPoolState :=
  ⟨.uniswapV2, 0, 0, 0, reserve0, reserve1, nowMs, 0⟩

/-- The row of a pool woken before anything is known of it. -/
def placeholder (nowMs : ℕ) : SlimPoolState := { fromV3 0 0 0 nowMs with activityCount := 1 }

end SlimPoolState

/-! ## Logs -/

inductive LogPatch
  | v2Reserves (reserve0 reserve1 : U256)
  | v3Slot (sqrtPriceX96 : U256) (liquidity : ℕ) (tick : ℤ)
  deriving DecidableEq

/-- The two event signatures of the generated bindings. -/
structure LogTopics where
  v2Sync : BitVec 256
  v3Swap : BitVec 256

/-- The ABI word at byte `i`. -/
def wordAt (data : List Byte) (i : ℕ) : U256 := BitVec.ofNat 256 (ofBe ((data.drop i).take 32))

/-- The low 24 bits as a signed number. -/
def signExtendTick24 (tickWord : U256) : ℤ := (tickWord.setWidth 24).toInt

def decodeV2Sync (data : List Byte) : Option LogPatch :=
  if data.length < 64 then none else some (.v2Reserves (wordAt data 0) (wordAt data 32))

/-- The liquidity is the low limb of its word. -/
def decodeV3Swap (data : List Byte) : Option LogPatch :=
  if data.length < 160 then none
  else
    some (.v3Slot (wordAt data 64) ((wordAt data 96).toNat % 2 ^ 64)
      (signExtendTick24 (wordAt data 128)))

def decodePoolLog (topics : LogTopics) (topic0 : BitVec 256) (data : List Byte) :
    Option LogPatch :=
  if topic0 = topics.v2Sync then decodeV2Sync data
  else if topic0 = topics.v3Swap then decodeV3Swap data
  else none

/-! ## The cache -/

structure PartialPoolCache where
  pools : Address → Option SlimPoolState
  dirty : Finset Address
  streamUniverse : Finset Address

namespace PartialPoolCache

def new : PartialPoolCache := ⟨fun _ => none, ∅, ∅⟩

variable (cache : PartialPoolCache)

/-- `pools.entry(address).and_modify(modify).or_insert_with(fresh)`. -/
def upsert (address : Address) (modify : SlimPoolState → SlimPoolState) (fresh : SlimPoolState) :
    PartialPoolCache :=
  { cache with
    pools := Function.update cache.pools address
      (some ((cache.pools address).elim fresh modify)) }

/-- Seeding establishes newly tracked pools only. -/
def seed (address : Address) (state : SlimPoolState) : PartialPoolCache :=
  cache.upsert address id state

def seedFromPoolState (address : Address) (state : PoolState) (nowMs : ℕ) : PartialPoolCache :=
  match state with
  | .v2 v2 => cache.seed address (.fromV2 v2.reserve0 v2.reserve1 nowMs)
  | .v3 v3 => cache.seed address (.fromV3 v3.sqrtPriceX96 v3.liquidity v3.tick nowMs)
  | .v4 v4 => cache.seed address (.fromV4 v4.sqrtPriceX96 v4.liquidity v4.tick nowMs)
  | _ => cache

def seedFromStateCache (store : StateStore) (addresses : List Address) (nowMs : ℕ) :
    PartialPoolCache :=
  addresses.foldl
    (fun cache address =>
      match store.lookupPoolState address nowMs with
      | some state => cache.seedFromPoolState address state nowMs
      | none => cache)
    cache

/-- The universe becomes the given venues and the ones observed lately. -/
def setStreamUniverse (addrs sticky : List Address) : PartialPoolCache :=
  { cache with streamUniverse := addrs.toFinset ∪ sticky.toFinset }

/-- One woken pool: marked, and stamped active. -/
def wake (now : ℕ) (address : Address) : PartialPoolCache :=
  { cache with dirty := insert address cache.dirty }.upsert address
    (fun state => { state with patchedAtMs := now, activityCount := max state.activityCount 1 })
    (.placeholder now)

def wakeDirtyPools (addrs : List Address) (now : ℕ) : PartialPoolCache :=
  addrs.foldl (fun cache address => cache.wake now address) cache

def wakeForAdmittedObserved (observed : List Address) (now : ℕ) : PartialPoolCache :=
  cache.wakeDirtyPools (observed.filter (· ∈ cache.streamUniverse)) now

def saturatingNext64 (n : ℕ) : ℕ := min (n + 1) (2 ^ 64 - 1)

/-- A row after a patch; the protocol tag stays. -/
def patchRow (patch : LogPatch) (nowMs : ℕ) (state : SlimPoolState) : SlimPoolState :=
  match patch with
  | .v2Reserves reserve0 reserve1 =>
      { state with
        reserve0 := reserve0
        reserve1 := reserve1
        patchedAtMs := nowMs
        activityCount := saturatingNext64 state.activityCount }
  | .v3Slot sqrtPriceX96 liquidity tick =>
      { state with
        sqrtPriceX96 := sqrtPriceX96
        liquidity := liquidity
        tick := tick
        patchedAtMs := nowMs
        activityCount := saturatingNext64 state.activityCount }

/-- The row of a pool first heard of through a patch. -/
def patchedRow (patch : LogPatch) (nowMs : ℕ) : SlimPoolState :=
  match patch with
  | .v2Reserves reserve0 reserve1 =>
      { SlimPoolState.fromV2 reserve0 reserve1 nowMs with activityCount := 1 }
  | .v3Slot sqrtPriceX96 liquidity tick =>
      { SlimPoolState.fromV3 sqrtPriceX96 liquidity tick nowMs with activityCount := 1 }

def applyPatchNotify (pool : Address) (patch : LogPatch) (nowMs : ℕ) (wakeHf : Bool) :
    PartialPoolCache :=
  let patched := cache.upsert pool (patchRow patch nowMs) (patchedRow patch nowMs)
  if wakeHf then { patched with dirty := insert pool patched.dirty } else patched

/-! ### The flush -/

end PartialPoolCache

/-- Writes the row into a state of its tag; the flag says whether a price field changed. -/
def applySlimToPoolState (state : PoolState) (slim : SlimPoolState) : PoolState × Bool :=
  match state, slim.protocol with
  | .v2 v2, .uniswapV2 =>
      (.v2 { v2 with reserve0 := slim.reserve0, reserve1 := slim.reserve1 },
        v2.reserve0 ≠ slim.reserve0 || v2.reserve1 ≠ slim.reserve1)
  | .v3 v3, .uniswapV3 =>
      (.v3 { v3 with
          sqrtPriceX96 := slim.sqrtPriceX96, liquidity := slim.liquidity, tick := slim.tick },
        v3.sqrtPriceX96 ≠ slim.sqrtPriceX96 || v3.liquidity ≠ slim.liquidity || v3.tick ≠ slim.tick)
  | .v4 v4, .uniswapV4 =>
      (.v4 { v4 with
          sqrtPriceX96 := slim.sqrtPriceX96, liquidity := slim.liquidity, tick := slim.tick },
        v4.sqrtPriceX96 ≠ slim.sqrtPriceX96 || v4.liquidity ≠ slim.liquidity || v4.tick ≠ slim.tick)
  | state, _ => (state, false)

/-- The addresses taken out of the dirty set, in order, and what stays in it. -/
def drainDirty (dirty : Finset Address) : List Address → List Address × Finset Address
  | [] => ([], dirty)
  | a :: rest =>
      if a ∈ dirty then
        let (taken, left) := drainDirty (dirty.erase a) rest
        (a :: taken, left)
      else drainDirty dirty rest

structure FlushRun where
  store : StateStore
  flushed : ℕ
  retry : List Address

/-- One drained address; a pool without a row or without a cached state is tried again later. -/
def flushOne (pools : Address → Option SlimPoolState) (now : ℕ) (run : FlushRun) (addr : Address) :
    FlushRun :=
  match pools addr with
  | none => { run with retry := run.retry ++ [addr] }
  | some slim =>
      let (found, store) := run.store.patchPool addr (applySlimToPoolState · slim) now
      if found then { run with store := store, flushed := run.flushed + 1 }
      else { run with store := store, retry := run.retry ++ [addr] }

structure FlushResult where
  flushed : ℕ
  cache : PartialPoolCache
  store : StateStore

def PartialPoolCache.flushToStateCache (cache : PartialPoolCache) (store : StateStore)
    (addresses : List Address) (now : ℕ) : FlushResult :=
  let (taken, left) := drainDirty cache.dirty addresses
  let run := taken.foldl (flushOne cache.pools now) ⟨store, 0, []⟩
  ⟨run.flushed, { cache with dirty := left ∪ run.retry.toFinset }, run.store⟩

/-! ## What a row says

Seeds, wakes and stamps leave what a row says of its pool alone; only a patch changes it. -/

namespace SlimPoolState

/-- The row without its stamps. -/
def copy (row : SlimPoolState) : SlimPoolState := { row with patchedAtMs := 0, activityCount := 0 }

end SlimPoolState

section ApplySlim

variable {st state : PoolState} {row row' : SlimPoolState}

lemma applySlim_copy (st : PoolState) (row : SlimPoolState) :
    applySlimToPoolState st row.copy = applySlimToPoolState st row := rfl

lemma applySlim_congr (h : row.copy = row'.copy) (st : PoolState) :
    applySlimToPoolState st row = applySlimToPoolState st row' := by
  rw [← applySlim_copy st row, h, applySlim_copy]

/-- A row that reports no change makes none. -/
lemma applySlim_of_unchanged (h : (applySlimToPoolState st row).2 = false) :
    (applySlimToPoolState st row).1 = st := by
  rcases row with ⟨protocol, _, _, _, _, _, _, _⟩
  cases st <;> cases protocol <;> try rfl
  all_goals
    simp only [applySlimToPoolState, ne_eq, Bool.or_eq_false_iff, decide_eq_false_iff_not,
      not_not] at h
    simp only [applySlimToPoolState, ← h]

/-- Writing a row twice is writing it once. -/
lemma applySlim_idem (st : PoolState) (row : SlimPoolState) :
    (applySlimToPoolState (applySlimToPoolState st row).1 row).1 =
      (applySlimToPoolState st row).1 := by
  rcases row with ⟨protocol, _, _, _, _, _, _, _⟩
  cases st <;> cases protocol <;> rfl

/-- States of one price level whose ticks differ take a row alike. -/
lemma applySlim_snd_of_level (h : poolStatePriceLevelEq st state = true)
    (hcl : keepsClTicks st state = true) :
    (applySlimToPoolState st row).2 = (applySlimToPoolState state row).2 := by
  rcases row with ⟨protocol, _, _, _, _, _, _, _⟩
  cases st <;> cases state <;> try (cases hcl; done)
  all_goals
    simp only [poolStatePriceLevelEq, sameClLevel, Bool.and_eq_true, decide_eq_true_eq] at h
    cases protocol <;> simp only [applySlimToPoolState, h]

end ApplySlim

namespace PartialPoolCache

variable {cache : PartialPoolCache} {pool address : Address} {row : SlimPoolState} {now : ℕ}

lemma pools_upsert (modify : SlimPoolState → SlimPoolState) (fresh : SlimPoolState) :
    (cache.upsert address modify fresh).pools pool =
      if pool = address then some ((cache.pools address).elim fresh modify)
      else cache.pools pool := by
  show Function.update cache.pools address _ pool = _
  rw [Function.update_apply]

/-- What a wake makes of the rows: a placeholder where there was none, and the stamps. -/
lemma copy_wake :
    ((cache.wake now address).pools pool).map SlimPoolState.copy =
      if pool = address then some ((cache.pools address).getD (.placeholder now)).copy
      else (cache.pools pool).map SlimPoolState.copy := by
  rw [wake, pools_upsert]
  split_ifs with hpool
  · cases hrow : cache.pools address <;> rfl
  · rfl

lemma wakeDirtyPools_cons (a : Address) (addrs : List Address) :
    cache.wakeDirtyPools (a :: addrs) now = (cache.wake now a).wakeDirtyPools addrs now := rfl

lemma copy_wakeDirtyPools (addrs : List Address) :
    ((cache.wakeDirtyPools addrs now).pools pool).map SlimPoolState.copy =
      if pool ∈ addrs then some ((cache.pools pool).getD (.placeholder now)).copy
      else (cache.pools pool).map SlimPoolState.copy := by
  induction addrs generalizing cache with
  | nil => rfl
  | cons a addrs ih =>
      rw [wakeDirtyPools_cons, ih]
      by_cases hpa : pool = a
      · have hwake : ((cache.wake now a).pools pool).map SlimPoolState.copy =
            some ((cache.pools pool).getD (.placeholder now)).copy := by
          rw [copy_wake, if_pos hpa, hpa]
        rcases Option.map_eq_some_iff.mp hwake with ⟨row, hrow, hcopy⟩
        rw [hrow, if_pos (List.mem_cons.mpr (Or.inl hpa))]
        simp only [Option.getD_some, Option.map_some, hcopy, ite_self]
      · have hsame : (cache.wake now a).pools pool = cache.pools pool := by
          rw [wake, pools_upsert, if_neg hpa]
        simp only [hsame, List.mem_cons, hpa, false_or]

lemma dirty_wakeDirtyPools (addrs : List Address) :
    (cache.wakeDirtyPools addrs now).dirty = cache.dirty ∪ addrs.toFinset := by
  induction addrs generalizing cache with
  | nil => simp [wakeDirtyPools]
  | cons a addrs ih =>
      rw [wakeDirtyPools_cons, ih]
      ext x
      simp only [wake, upsert, Finset.mem_union, Finset.mem_insert, List.mem_toFinset,
        List.mem_cons]
      tauto

lemma pools_seed (h : cache.pools pool = some row) (state : SlimPoolState) :
    (cache.seed address state).pools pool = some row := by
  rw [seed, pools_upsert]
  split_ifs with hpool
  · subst hpool
    rw [h]
    rfl
  · exact h

lemma pools_seedFromPoolState (h : cache.pools pool = some row) (state : PoolState) :
    (cache.seedFromPoolState address state now).pools pool = some row := by
  cases state with
  | v2 _ | v3 _ | v4 _ => exact pools_seed h _
  | _ => exact h

lemma dirty_seedFromPoolState (state : PoolState) :
    (cache.seedFromPoolState address state now).dirty = cache.dirty := by
  cases state <;> rfl

lemma seedFromStateCache_cons (store : StateStore) (a : Address) (addresses : List Address) :
    cache.seedFromStateCache store (a :: addresses) now =
      (match store.lookupPoolState a now with
        | some state => cache.seedFromPoolState a state now
        | none => cache).seedFromStateCache store addresses now := rfl

/-- Seeding leaves the rows that exist. -/
lemma pools_seedFromStateCache (cache : PartialPoolCache) (store : StateStore)
    (addresses : List Address) (h : cache.pools pool = some row) :
    (cache.seedFromStateCache store addresses now).pools pool = some row := by
  induction addresses generalizing cache with
  | nil => exact h
  | cons a addresses ih =>
      rw [seedFromStateCache_cons]
      cases hstate : store.lookupPoolState a now with
      | none => exact ih cache h
      | some state => exact ih _ (pools_seedFromPoolState h state)

lemma dirty_seedFromStateCache (cache : PartialPoolCache) (store : StateStore)
    (addresses : List Address) :
    (cache.seedFromStateCache store addresses now).dirty = cache.dirty := by
  induction addresses generalizing cache with
  | nil => rfl
  | cons a addresses ih =>
      rw [seedFromStateCache_cons, ih]
      cases hstate : store.lookupPoolState a now with
      | none => rfl
      | some state => exact dirty_seedFromPoolState state

end PartialPoolCache

/-! ## What a flush does -/

section Flush

variable {cache : PartialPoolCache} {store : StateStore} {pool : Address} {addresses : List Address}
  {now : ℕ}

lemma mem_drainDirty {dirty : Finset Address} {a : Address} :
    a ∈ (drainDirty dirty addresses).1 ↔ a ∈ addresses ∧ a ∈ dirty := by
  induction addresses generalizing dirty with
  | nil => simp [drainDirty]
  | cons b addresses ih =>
      rw [drainDirty]
      split_ifs with hb
      · simp only [List.mem_cons, ih, Finset.mem_erase]
        by_cases hab : a = b
        · subst hab
          simp [hb]
        · simp [hab]
      · rw [ih, List.mem_cons]
        constructor
        · rintro ⟨hmem, hdirty⟩
          exact ⟨Or.inr hmem, hdirty⟩
        · rintro ⟨rfl | hmem, hdirty⟩
          · exact absurd hdirty hb
          · exact ⟨hmem, hdirty⟩

lemma drainDirty_subset {dirty : Finset Address} {a : Address}
    (h : a ∈ (drainDirty dirty addresses).2) : a ∈ dirty := by
  induction addresses generalizing dirty with
  | nil => exact h
  | cons b addresses ih =>
      rw [drainDirty] at h
      split_ifs at h with hb
      · exact Finset.mem_of_mem_erase (ih h)
      · exact ih h

/-- The state of a pool after its row has been written into it. -/
def withRow (row : Option SlimPoolState) (st : PoolState) : PoolState :=
  row.elim st fun row => (applySlimToPoolState st row).1

lemma withRow_idem (row : Option SlimPoolState) (st : PoolState) :
    withRow row (withRow row st) = withRow row st := by
  cases row with
  | none => rfl
  | some row => exact applySlim_idem st row

lemma cached_flushOne {pools : Address → Option SlimPoolState} (run : FlushRun) (addr : Address) :
    (flushOne pools now run addr).store.cached pool =
      if pool = addr then (run.store.cached pool).map (withRow (pools pool))
      else run.store.cached pool := by
  cases hrow : pools addr with
  | none =>
      have hstore : (flushOne pools now run addr).store = run.store := by rw [flushOne, hrow]
      rw [hstore]
      split_ifs with hpool
      · subst hpool
        rw [hrow]
        exact Option.map_id'.symm
      · rfl
  | some row =>
      have hstore : (flushOne pools now run addr).store =
          (run.store.patchPool addr (applySlimToPoolState · row) now).2 := by
        rw [flushOne, hrow]
        dsimp only
        split_ifs <;> rfl
      rw [hstore, StateStore.cached_patchPool]
      split_ifs with hpool
      · subst hpool
        rw [hrow]
        rfl
      · rfl

lemma retry_flushOne {pools : Address → Option SlimPoolState} {run : FlushRun} {addr a : Address}
    (h : a ∈ (flushOne pools now run addr).retry) : a ∈ run.retry ∨ a = addr := by
  rw [flushOne] at h
  split at h
  · simpa using h
  · dsimp only at h
    split_ifs at h
    · exact Or.inl h
    · simpa using h

lemma cached_flushAll {pools : Address → Option SlimPoolState} (taken : List Address)
    (run : FlushRun) :
    (taken.foldl (flushOne pools now) run).store.cached pool =
      if pool ∈ taken then (run.store.cached pool).map (withRow (pools pool))
      else run.store.cached pool := by
  induction taken generalizing run with
  | nil => rfl
  | cons a taken ih =>
      rw [List.foldl_cons, ih, cached_flushOne]
      by_cases hpa : pool = a
      · simp only [hpa, List.mem_cons, true_or, if_true]
        split_ifs with hmem
        · rw [Option.map_map]
          congr 1
          funext st
          exact withRow_idem _ st
        · rfl
      · simp only [hpa, List.mem_cons, false_or, if_false]

lemma retry_flushAll {pools : Address → Option SlimPoolState} {taken : List Address}
    {run : FlushRun} {a : Address} (h : a ∈ (taken.foldl (flushOne pools now) run).retry) :
    a ∈ run.retry ∨ a ∈ taken := by
  induction taken generalizing run with
  | nil => exact Or.inl h
  | cons b taken ih =>
      rw [List.foldl_cons] at h
      rcases ih h with hrun | hmem
      · rcases retry_flushOne hrun with hretry | rfl
        · exact Or.inl hretry
        · exact Or.inr List.mem_cons_self
      · exact Or.inr (List.mem_cons_of_mem b hmem)

/-- A flush writes the rows of the marked pools it is given, and nothing else. -/
theorem cached_flushToStateCache :
    (cache.flushToStateCache store addresses now).store.cached pool =
      if pool ∈ addresses ∧ pool ∈ cache.dirty then
        (store.cached pool).map (withRow (cache.pools pool))
      else store.cached pool := by
  rw [PartialPoolCache.flushToStateCache]
  dsimp only
  rw [cached_flushAll]
  simp only [mem_drainDirty]

/-- A flush marks no pool. -/
lemma dirty_flushToStateCache
    (h : pool ∈ (cache.flushToStateCache store addresses now).cache.dirty) :
    pool ∈ cache.dirty := by
  rw [PartialPoolCache.flushToStateCache] at h
  rcases Finset.mem_union.mp h with hleft | hretry
  · exact drainDirty_subset hleft
  · rcases retry_flushAll (List.mem_toFinset.mp hretry) with hnil | htaken
    · cases hnil
    · exact (mem_drainDirty.mp htaken).2

lemma idleEmpty_flushAll {pools : Address → Option SlimPoolState} (taken : List Address)
    {run : FlushRun} (h : run.store.IdleEmpty) :
    (taken.foldl (flushOne pools now) run).store.IdleEmpty := by
  induction taken generalizing run with
  | nil => exact h
  | cons a taken ih =>
      rw [List.foldl_cons]
      refine ih ?_
      rw [flushOne]
      split
      · exact h
      · dsimp only
        split_ifs
        · exact h.patchPool _
        · exact h.patchPool _

end Flush

/-! ## The stream -/

/-- Both caches, and what the stream has said: the last patch decoded for each pool, and the pools
whose last patch came after their last insertion. -/
structure Stream where
  cache : PartialPoolCache
  store : StateStore
  lastPatch : Address → Option LogPatch
  patchedSinceInsert : Finset Address

inductive StreamOp
  | insert (address : Address) (state : PoolState) (now : ℕ) (order : List Address)
  | remove (address : Address)
  | seed (address : Address) (state : SlimPoolState)
  | seedFromStateCache (addresses : List Address) (now : ℕ)
  | setStreamUniverse (addrs sticky : List Address)
  | wakeForAdmittedObserved (observed : List Address) (now : ℕ)
  | wakeDirtyPools (addrs : List Address) (now : ℕ)
  | applyPatchNotify (pool : Address) (patch : LogPatch) (now : ℕ) (wakeHf : Bool)
  | applyLogNotify (pool : Address) (topic0 : BitVec 256) (data : List Byte) (now : ℕ)
      (wakeHf : Bool)
  | flush (addresses : List Address) (now : ℕ)

namespace Stream

/-- Nothing is tracked and nothing is cached. -/
def start (maxEntries ttl : ℕ) : Stream := ⟨.new, .new maxEntries ttl, fun _ => none, ∅⟩

def patch (s : Stream) (pool : Address) (patch : LogPatch) (now : ℕ) (wakeHf : Bool) : Stream :=
  { s with
    cache := s.cache.applyPatchNotify pool patch now wakeHf
    lastPatch := Function.update s.lastPatch pool (some patch)
    patchedSinceInsert := insert pool s.patchedSinceInsert }

def flush (s : Stream) (addresses : List Address) (now : ℕ) : Stream :=
  let result := s.cache.flushToStateCache s.store addresses now
  { s with cache := result.cache, store := result.store }

def step (topics : LogTopics) (s : Stream) : StreamOp → Option Stream
  | .insert address state now order =>
      some
        { s with
          store := s.store.insert address state now order
          patchedSinceInsert := s.patchedSinceInsert.erase address }
  | .remove address => some { s with store := s.store.remove address }
  | .seed address state => some { s with cache := s.cache.seed address state }
  | .seedFromStateCache addresses now =>
      some { s with cache := s.cache.seedFromStateCache s.store addresses now }
  | .setStreamUniverse addrs sticky =>
      some { s with cache := s.cache.setStreamUniverse addrs sticky }
  | .wakeForAdmittedObserved observed now =>
      some { s with cache := s.cache.wakeForAdmittedObserved observed now }
  | .wakeDirtyPools addrs now => some { s with cache := s.cache.wakeDirtyPools addrs now }
  | .applyPatchNotify pool patch now wakeHf => some (s.patch pool patch now wakeHf)
  | .applyLogNotify pool topic0 data now wakeHf =>
      match decodePoolLog topics topic0 data with
      | none => some s
      | some patch => some (s.patch pool patch now wakeHf)
  | .flush addresses now => some (s.flush addresses now)

end Stream

/-! ## No update is lost -/

/-- The tag of the rows a patch creates. -/
def LogPatch.protocol : LogPatch → ProtocolType
  | .v2Reserves _ _ => .uniswapV2
  | .v3Slot _ _ _ => .uniswapV3

/-- The patch an operation decodes, with its pool. -/
def StreamOp.decoded (topics : LogTopics) : StreamOp → Option (Address × LogPatch)
  | .applyPatchNotify pool patch _ _ => some (pool, patch)
  | .applyLogNotify pool topic0 data _ _ =>
      (decodePoolLog topics topic0 data).map fun patch => (pool, patch)
  | _ => none

/-- The row carries the patch under the patch's own tag. -/
def SlimPoolState.Holds (row : SlimPoolState) : LogPatch → Prop
  | .v2Reserves reserve0 reserve1 =>
      row.protocol = .uniswapV2 ∧ row.reserve0 = reserve0 ∧ row.reserve1 = reserve1
  | .v3Slot sqrtPriceX96 liquidity tick =>
      row.protocol = .uniswapV3 ∧ row.sqrtPriceX96 = sqrtPriceX96 ∧ row.liquidity = liquidity ∧
        row.tick = tick

/-- The state's price fields are those of the patch; a state of another kind has none of them. -/
def Shows : PoolState → LogPatch → Prop
  | .v2 s, .v2Reserves reserve0 reserve1 => s.reserve0 = reserve0 ∧ s.reserve1 = reserve1
  | .v3 s, .v3Slot sqrtPriceX96 liquidity tick =>
      s.sqrtPriceX96 = sqrtPriceX96 ∧ s.liquidity = liquidity ∧ s.tick = tick
  | _, _ => True

section Rows

variable {row row' : SlimPoolState} {patch : LogPatch} {now : ℕ}

lemma SlimPoolState.Holds.congr (h : row.Holds patch) (hcopy : row'.copy = row.copy) :
    row'.Holds patch := by
  have hiff : ∀ r : SlimPoolState, r.Holds patch ↔ r.copy.Holds patch := by
    intro r
    cases patch <;> rfl
  rw [hiff, hcopy, ← hiff]
  exact h

lemma holds_patchRow (h : row.protocol = patch.protocol) :
    (PartialPoolCache.patchRow patch now row).Holds patch := by
  cases patch with
  | v2Reserves _ _ => exact ⟨h, rfl, rfl⟩
  | v3Slot _ _ _ => exact ⟨h, rfl, rfl, rfl⟩

lemma holds_patchedRow : (PartialPoolCache.patchedRow patch now).Holds patch := by
  cases patch with
  | v2Reserves _ _ => exact ⟨rfl, rfl, rfl⟩
  | v3Slot _ _ _ => exact ⟨rfl, rfl, rfl, rfl⟩

/-- A row that holds a patch writes it into a state of the patch's kind. -/
lemma shows_applySlim (h : row.Holds patch) (st : PoolState) :
    Shows (applySlimToPoolState st row).1 patch := by
  rcases row with ⟨protocol, _, _, _, _, _, _, _⟩
  cases patch with
  | v2Reserves _ _ =>
      rcases h with ⟨hp, h0, h1⟩
      cases hp
      cases st <;> first | exact ⟨h0, h1⟩ | trivial
  | v3Slot _ _ _ =>
      rcases h with ⟨hp, hs, hl, ht⟩
      cases hp
      cases st <;> first | exact ⟨hs, hl, ht⟩ | trivial

end Rows

namespace Stream

variable {topics : LogTopics} {s s' : Stream} {op : StreamOp} {pool : Address}

/-- A patch meets no row, or a row of its own tag. -/
def PatchesMeetTheirRows (topics : LogTopics) (s : Stream) (op : StreamOp) : Prop :=
  ∀ pool patch, op.decoded topics = some (pool, patch) →
    ∀ row, s.cache.pools pool = some row → row.protocol = patch.protocol

/-- The row of a patched pool holds its last patch. -/
def Recorded (s : Stream) : Prop :=
  ∀ pool patch, s.lastPatch pool = some patch →
    ∃ row, s.cache.pools pool = some row ∧ row.Holds patch

lemma Recorded.of_copies (h : s.Recorded) {cache : PartialPoolCache}
    (hcopy : ∀ pool row, s.cache.pools pool = some row →
      ∃ row', cache.pools pool = some row' ∧ row'.copy = row.copy) :
    Recorded { s with cache } := by
  intro pool patch hlast
  rcases h pool patch hlast with ⟨row, hrow, hholds⟩
  rcases hcopy pool row hrow with ⟨row', hrow', hsame⟩
  exact ⟨row', hrow', hholds.congr hsame⟩

lemma copy_of_wake {cache : PartialPoolCache} {addrs : List Address} {now : ℕ}
    {row : SlimPoolState} (hrow : cache.pools pool = some row) :
    ∃ row', (cache.wakeDirtyPools addrs now).pools pool = some row' ∧ row'.copy = row.copy := by
  have hcopy : ((cache.wakeDirtyPools addrs now).pools pool).map SlimPoolState.copy =
      some row.copy := by
    rw [PartialPoolCache.copy_wakeDirtyPools, hrow]
    simp
  exact Option.map_eq_some_iff.mp hcopy

lemma pools_patch (patch : LogPatch) (now : ℕ) (wakeHf : Bool) (p : Address) :
    (s.patch pool patch now wakeHf).cache.pools p =
      if p = pool then
        some ((s.cache.pools pool).elim (PartialPoolCache.patchedRow patch now)
          (PartialPoolCache.patchRow patch now))
      else s.cache.pools p := by
  rw [← PartialPoolCache.pools_upsert, Stream.patch, PartialPoolCache.applyPatchNotify]
  cases wakeHf <;> rfl

/-- A patch marks its own pool at most. -/
lemma dirty_patch {patch : LogPatch} {now : ℕ} {wakeHf : Bool} {p : Address} (hp : p ≠ pool)
    (h : p ∈ (s.patch pool patch now wakeHf).cache.dirty) : p ∈ s.cache.dirty := by
  cases wakeHf with
  | true => exact (Finset.mem_insert.mp h).resolve_left hp
  | false => exact h

lemma Recorded.patch (h : s.Recorded) {patch : LogPatch} {now : ℕ} {wakeHf : Bool}
    (hok : ∀ row, s.cache.pools pool = some row → row.protocol = patch.protocol) :
    (s.patch pool patch now wakeHf).Recorded := by
  intro p patch' hlast
  replace hlast : Function.update s.lastPatch pool (some patch) p = some patch' := hlast
  rw [pools_patch]
  by_cases hp : p = pool
  · subst hp
    rw [Function.update_self] at hlast
    rw [if_pos rfl, ← Option.some.inj hlast]
    cases hrow : s.cache.pools p with
    | none => exact ⟨_, rfl, holds_patchedRow⟩
    | some row => exact ⟨_, rfl, holds_patchRow (hok row hrow)⟩
  · rw [Function.update_of_ne hp] at hlast
    rw [if_neg hp]
    exact h p patch' hlast

lemma Recorded.step (h : s.Recorded) (hok : PatchesMeetTheirRows topics s op)
    (hstep : s.step topics op = some s') : s'.Recorded := by
  cases op with
  | insert _ _ _ _ | remove _ | flush _ _ =>
      cases hstep
      exact h
  | setStreamUniverse _ _ =>
      cases hstep
      exact h
  | seed address state =>
      cases hstep
      refine h.of_copies ?_
      intro pool row hrow
      exact ⟨row, PartialPoolCache.pools_seed hrow state, rfl⟩
  | seedFromStateCache addresses now =>
      cases hstep
      refine h.of_copies ?_
      intro pool row hrow
      exact ⟨row, s.cache.pools_seedFromStateCache s.store addresses hrow, rfl⟩
  | wakeForAdmittedObserved _ _ | wakeDirtyPools _ _ =>
      cases hstep
      refine h.of_copies ?_
      intro pool row hrow
      exact copy_of_wake hrow
  | applyPatchNotify pool patch now wakeHf =>
      cases hstep
      exact h.patch (hok pool patch rfl)
  | applyLogNotify pool topic0 data now wakeHf =>
      rw [Stream.step] at hstep
      cases hdec : decodePoolLog topics topic0 data with
      | none =>
          rw [hdec] at hstep
          cases hstep
          exact h
      | some patch =>
          rw [hdec] at hstep
          cases hstep
          exact h.patch (hok pool patch (by rw [StreamOp.decoded, hdec, Option.map_some]))

/-- A flush of a marked pool leaves its last patch in its state. -/
theorem flush_shows_lastPatch {maxEntries ttl : ℕ}
    (hrun : Reachable (Stream.step topics) (PatchesMeetTheirRows topics)
      (fun s => s = start maxEntries ttl) s)
    {addresses : List Address} (haddr : pool ∈ addresses) (hdirty : pool ∈ s.cache.dirty)
    {patch : LogPatch} (hlast : s.lastPatch pool = some patch) (now : ℕ) {st : PoolState}
    (hst : (s.flush addresses now).store.cached pool = some st) : Shows st patch := by
  have hrec : s.Recorded := by
    refine Reachable.inv Recorded ?_ ?_ hrun
    · rintro s rfl pool patch hlast
      cases hlast
    · intro s op s' h hok hstep
      exact h.step hok hstep
  rcases hrec pool patch hlast with ⟨row, hrow, hholds⟩
  rw [flush, cached_flushToStateCache, if_pos ⟨haddr, hdirty⟩, hrow] at hst
  rcases Option.map_eq_some_iff.mp hst with ⟨prior, -, rfl⟩
  exact shows_applySlim hholds prior

/-- A pair with these reserves. -/
def pairState (reserve0 reserve1 : U256) : PoolState := .v2 ⟨reserve0, reserve1, 3, 1000, 0⟩

def someTopics : LogTopics := ⟨1, 2⟩

/-- Pool `7` is cached, then its `Sync` log arrives. -/
def syncedPair : Stream :=
  ({ start 16 600 with store := (StateStore.new 16 600).insert 7 (pairState 10 20) 0 [] } :
    Stream).patch 7 (.v2Reserves 11 19) 1 true

lemma reachable_syncedPair :
    Reachable (Stream.step someTopics) (PatchesMeetTheirRows someTopics)
      (fun s => s = start 16 600) syncedPair := by
  have hinsert : Reachable (Stream.step someTopics) (PatchesMeetTheirRows someTopics)
      (fun s => s = start 16 600)
      { start 16 600 with store := (StateStore.new 16 600).insert 7 (pairState 10 20) 0 [] } := by
    refine Reachable.step (a := .insert 7 (pairState 10 20) 0 []) (Reachable.init rfl) ?_ rfl
    intro pool patch hdec
    cases hdec
  refine Reachable.step (a := .applyPatchNotify 7 (.v2Reserves 11 19) 1 true) hinsert ?_ rfl
  intro pool patch hdec row hrow
  cases hrow

theorem flush_shows_lastPatch_syncedPair :
    (syncedPair.flush [7] 2).store.cached 7 = some (pairState 11 19) ∧
      Shows (pairState 11 19) (.v2Reserves 11 19) := by
  have hst : (syncedPair.flush [7] 2).store.cached 7 = some (pairState 11 19) := by decide
  have hmem : (7 : Address) ∈ syncedPair.cache.dirty := by decide
  exact ⟨hst, flush_shows_lastPatch reachable_syncedPair (by decide) hmem rfl 2 hst⟩

/-- The pool is woken between the two: its row is a V3 placeholder, and its `Sync` is lost. -/
theorem flush_loses_sync :
    ∃ s : Stream,
      play (Stream.step someTopics) (start 16 600)
          [.insert 7 (pairState 10 20) 0 [], .wakeDirtyPools [7] 1,
            .applyPatchNotify 7 (.v2Reserves 11 19) 2 true] = some s ∧
        (7 : Address) ∈ s.cache.dirty ∧ s.lastPatch 7 = some (.v2Reserves 11 19) ∧
        (s.flush [7] 3).store.cached 7 = some (pairState 10 20) ∧
        ¬ Shows (pairState 10 20) (.v2Reserves 11 19) := by
  refine ⟨_, rfl, by decide, rfl, by decide, ?_⟩
  rintro ⟨h0, -⟩
  exact absurd h0 (by decide)

/-! ## No flush moves a state backwards -/

/-- The pools an operation wakes. -/
def woken (s : Stream) : StreamOp → List Address
  | .wakeForAdmittedObserved observed _ => observed.filter (· ∈ s.cache.streamUniverse)
  | .wakeDirtyPools addrs _ => addrs
  | _ => []

/-- No pool is left pending with a row that says something else than its cached state, unless a
patch came after its last insertion: a wake finds a row that agrees, or none and a state that takes
no placeholder, and an insertion under a marked pool agrees with its row. -/
def PendingRowsAgree (s : Stream) (op : StreamOp) : Prop :=
  (∀ pool ∈ s.woken op, pool ∉ s.patchedSinceInsert → ∀ st, s.store.cached pool = some st →
      (applySlimToPoolState st ((s.cache.pools pool).getD (.placeholder 0))).2 = false) ∧
    match op with
    | .insert address state _ _ =>
        address ∈ s.cache.dirty → ∀ row, s.cache.pools address = some row →
          (applySlimToPoolState state row).2 = false
    | _ => True

/-- A pending pool has a row, and the row agrees with its state unless it carries a newer patch. -/
structure Calm (s : Stream) : Prop where
  rows : ∀ pool ∈ s.cache.dirty, (s.cache.pools pool).isSome
  agrees : ∀ pool ∈ s.cache.dirty, pool ∉ s.patchedSinceInsert →
    ∀ row, s.cache.pools pool = some row → ∀ st, s.store.cached pool = some st →
      (applySlimToPoolState st row).2 = false
  idle : s.store.IdleEmpty

lemma calm_start (maxEntries ttl : ℕ) : (start maxEntries ttl).Calm where
  rows := by
    intro pool h
    cases h
  agrees := by
    intro pool h
    cases h
  idle := by
    intro _ pool
    rfl

lemma Calm.insert (h : s.Calm) {address : Address} {state : PoolState} {now : ℕ}
    {order : List Address} (hok : s.PendingRowsAgree (.insert address state now order)) :
    Calm
      { s with
        store := s.store.insert address state now order
        patchedSinceInsert := s.patchedSinceInsert.erase address } where
  rows := h.rows
  agrees := by
    intro pool hdirty hsince row hrow st hst
    by_cases hpool : pool = address
    · subst hpool
      by_cases hmax : s.store.maxEntries = 0
      · have hnone : (s.store.insert pool state now order).cached pool = none :=
          h.idle.insert (by simpa using hmax) pool
        rw [hst] at hnone
        cases hnone
      · have hagree := hok.2 hdirty row hrow
        rcases StateStore.cached_insert_self hmax hst with rfl | ⟨hlevel, hcl⟩
        · exact hagree
        · rw [applySlim_snd_of_level hlevel hcl]
          exact hagree
    · have hsince' : pool ∉ s.patchedSinceInsert := by
        intro hmem
        exact hsince (Finset.mem_erase.mpr ⟨hpool, hmem⟩)
      exact h.agrees pool hdirty hsince' row hrow st (StateStore.cached_insert_ne hpool hst)
  idle := h.idle.insert

lemma Calm.remove (h : s.Calm) (address : Address) :
    Calm { s with store := s.store.remove address } where
  rows := h.rows
  agrees := by
    intro pool hdirty hsince row hrow st hst
    exact h.agrees pool hdirty hsince row hrow st (StateStore.cached_remove hst)
  idle := h.idle.remove

/-- The rows that exist and the marks stay. -/
lemma Calm.of_rows (h : s.Calm) {cache : PartialPoolCache} (hdirty : cache.dirty = s.cache.dirty)
    (hrows : ∀ pool row, s.cache.pools pool = some row → cache.pools pool = some row) :
    Calm { s with cache } where
  rows := by
    intro pool hmem
    rw [hdirty] at hmem
    rcases Option.isSome_iff_exists.mp (h.rows pool hmem) with ⟨row, hrow⟩
    rw [hrows pool row hrow]
    rfl
  agrees := by
    intro pool hmem hsince row hrow st hst
    rw [hdirty] at hmem
    rcases Option.isSome_iff_exists.mp (h.rows pool hmem) with ⟨row', hrow'⟩
    have hsame : row' = row := Option.some.inj ((hrows pool row' hrow').symm.trans hrow)
    exact h.agrees pool hmem hsince row (hsame ▸ hrow') st hst
  idle := h.idle

lemma Calm.wake (h : s.Calm) {addrs : List Address} {now : ℕ}
    (hok : ∀ pool ∈ addrs, pool ∉ s.patchedSinceInsert → ∀ st, s.store.cached pool = some st →
      (applySlimToPoolState st ((s.cache.pools pool).getD (.placeholder 0))).2 = false) :
    Calm { s with cache := s.cache.wakeDirtyPools addrs now } where
  rows := by
    intro pool hmem
    rw [← Option.isSome_map, PartialPoolCache.copy_wakeDirtyPools]
    rw [PartialPoolCache.dirty_wakeDirtyPools, Finset.mem_union, List.mem_toFinset] at hmem
    split_ifs with hwoken
    · rfl
    · rw [Option.isSome_map]
      exact h.rows pool (hmem.resolve_right hwoken)
  agrees := by
    intro pool hmem hsince row hrow st hst
    have hcopy : ((s.cache.wakeDirtyPools addrs now).pools pool).map SlimPoolState.copy = _ :=
      PartialPoolCache.copy_wakeDirtyPools addrs
    rw [PartialPoolCache.dirty_wakeDirtyPools, Finset.mem_union, List.mem_toFinset] at hmem
    rw [hrow, Option.map_some] at hcopy
    split_ifs at hcopy with hwoken
    · have hplace : row.copy = ((s.cache.pools pool).getD (.placeholder 0)).copy := by
        rw [Option.some.inj hcopy]
        cases s.cache.pools pool <;> rfl
      rw [applySlim_congr hplace]
      exact hok pool hwoken hsince st hst
    · rcases Option.map_eq_some_iff.mp hcopy.symm with ⟨row', hrow', hsame⟩
      rw [applySlim_congr hsame.symm]
      exact h.agrees pool (hmem.resolve_right hwoken) hsince row' hrow' st hst
  idle := h.idle

lemma Calm.patch (h : s.Calm) (pool : Address) (patch : LogPatch) (now : ℕ) (wakeHf : Bool) :
    (s.patch pool patch now wakeHf).Calm where
  rows := by
    intro p hmem
    rw [pools_patch]
    split_ifs with hp
    · rfl
    · exact h.rows p (dirty_patch hp hmem)
  agrees := by
    intro p hmem hsince row hrow st hst
    have hp : p ≠ pool := by
      rintro rfl
      exact hsince (Finset.mem_insert_self _ _)
    rw [pools_patch, if_neg hp] at hrow
    have hsince' : p ∉ s.patchedSinceInsert := by
      intro hold
      exact hsince (Finset.mem_insert_of_mem hold)
    exact h.agrees p (dirty_patch hp hmem) hsince' row hrow st hst
  idle := h.idle

/-- A calm stream flushes a pool without a newer patch as it is. -/
lemma Calm.cached_flush (h : s.Calm) (hsince : pool ∉ s.patchedSinceInsert)
    (addresses : List Address) (now : ℕ) :
    (s.flush addresses now).store.cached pool = s.store.cached pool := by
  rw [flush, cached_flushToStateCache]
  split_ifs with hproc
  · cases hst : s.store.cached pool with
    | none => rfl
    | some st =>
        cases hrow : s.cache.pools pool with
        | none => rfl
        | some row =>
            rw [Option.map_some]
            exact congrArg some
              (applySlim_of_unchanged (h.agrees pool hproc.2 hsince row hrow st hst))
  · rfl

lemma Calm.flush (h : s.Calm) (addresses : List Address) (now : ℕ) :
    (s.flush addresses now).Calm where
  rows := by
    intro pool hmem
    exact h.rows pool (dirty_flushToStateCache hmem)
  agrees := by
    intro pool hmem hsince row hrow st hst
    rw [h.cached_flush hsince] at hst
    exact h.agrees pool (dirty_flushToStateCache hmem) hsince row hrow st hst
  idle := idleEmpty_flushAll _ h.idle

lemma Calm.step (h : s.Calm) (hok : s.PendingRowsAgree op) (hstep : s.step topics op = some s') :
    s'.Calm := by
  cases op with
  | insert address state now order =>
      cases hstep
      exact h.insert hok
  | remove address =>
      cases hstep
      exact h.remove address
  | setStreamUniverse addrs sticky =>
      cases hstep
      exact ⟨h.rows, h.agrees, h.idle⟩
  | seed address state =>
      cases hstep
      refine h.of_rows rfl ?_
      intro pool row hrow
      exact PartialPoolCache.pools_seed hrow state
  | seedFromStateCache addresses now =>
      cases hstep
      refine h.of_rows (s.cache.dirty_seedFromStateCache s.store addresses) ?_
      intro pool row hrow
      exact s.cache.pools_seedFromStateCache s.store addresses hrow
  | wakeForAdmittedObserved _ _ | wakeDirtyPools _ _ =>
      cases hstep
      exact h.wake hok.1
  | applyPatchNotify pool patch now wakeHf =>
      cases hstep
      exact h.patch pool patch now wakeHf
  | applyLogNotify pool topic0 data now wakeHf =>
      rw [Stream.step] at hstep
      cases hdec : decodePoolLog topics topic0 data with
      | none =>
          rw [hdec] at hstep
          cases hstep
          exact h
      | some patch =>
          rw [hdec] at hstep
          cases hstep
          exact h.patch pool patch now wakeHf
  | flush addresses now =>
      cases hstep
      exact h.flush addresses now

/-- A flush leaves the state of a pool without a newer patch as it is. -/
theorem flush_keeps_price {maxEntries ttl : ℕ}
    (hrun : Reachable (Stream.step topics) PendingRowsAgree (fun s => s = start maxEntries ttl) s)
    (hsince : pool ∉ s.patchedSinceInsert) (addresses : List Address) (now : ℕ) :
    (s.flush addresses now).store.cached pool = s.store.cached pool := by
  have hcalm : s.Calm := by
    refine Reachable.inv Calm ?_ ?_ hrun
    · rintro s rfl
      exact calm_start maxEntries ttl
    · intro s op s' h hok hstep
      exact h.step hok hstep
  exact hcalm.cached_flush hsince addresses now

/-- A V3 pool at price one. -/
def flatV3 (liquidity : ℕ) : PoolState := .v3 ⟨2 ^ 96, 0, liquidity, 3000, 60, [], true, 0, 1⟩

/-- Pool `7` is cached and seeded, then woken. -/
def wokenPool : Stream :=
  let store := (StateStore.new 16 600).insert 7 (flatV3 1000) 0 []
  { start 16 600 with
    store := store
    cache := (PartialPoolCache.new.seedFromStateCache store [7] 1).wakeDirtyPools [7] 2 }

lemma reachable_wokenPool :
    Reachable (Stream.step someTopics) PendingRowsAgree (fun s => s = start 16 600) wokenPool := by
  have hinsert : Reachable (Stream.step someTopics) PendingRowsAgree (fun s => s = start 16 600)
      { start 16 600 with store := (StateStore.new 16 600).insert 7 (flatV3 1000) 0 [] } := by
    refine Reachable.step (a := .insert 7 (flatV3 1000) 0 []) (Reachable.init rfl) ⟨?_, ?_⟩ rfl
    · intro pool hmem
      cases hmem
    · intro hmem
      cases hmem
  have hseed := hinsert.step (a := .seedFromStateCache [7] 1) ⟨by simp [woken], trivial⟩ rfl
  refine hseed.step (a := .wakeDirtyPools [7] 2) ⟨?_, trivial⟩ rfl
  intro pool hmem _ st hst
  rw [List.mem_singleton.mp hmem] at hst ⊢
  cases hst
  decide +kernel

theorem flush_keeps_price_wokenPool :
    (7 : Address) ∈ wokenPool.cache.dirty ∧
      (wokenPool.flush [7] 3).store.cached 7 = wokenPool.store.cached 7 :=
  ⟨by decide, flush_keeps_price reachable_wokenPool (by decide) [7] 3⟩

/-- Woken without a seed, the pool is flushed with the placeholder's price. -/
theorem flush_fabricates_price :
    ∃ s : Stream,
      play (Stream.step someTopics) (start 16 600)
          [.insert 7 (flatV3 1000) 0 [], .wakeDirtyPools [7] 1] = some s ∧
        (7 : Address) ∉ s.patchedSinceInsert ∧ s.lastPatch 7 = none ∧
        s.store.cached 7 = some (flatV3 1000) ∧
        (s.flush [7] 2).store.cached 7 = some (.v3 ⟨0, 0, 0, 3000, 60, [], true, 0, 1⟩) :=
  ⟨_, rfl, by decide, rfl, by decide +kernel, by decide +kernel⟩

end Stream

end PolygonArb

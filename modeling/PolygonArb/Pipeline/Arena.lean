import PolygonArb.Lib.IndexTable
import PolygonArb.Pipeline.SpotPrice

/-!
# The state arena

`pipeline/arena.rs`: tokens and pools get dense indices, two hash maps invert the tables, and a
layout fingerprint stands for the whole layout.  Hash maps are partial functions; the hasher is a
parameter `fx`, a function of the sequence of writes it is fed.

A pool state is held through an `Arc`.  The arena compares `Arc`s by pointer to skip writes, so a
`PoolArc` carries the allocation it points to; the ones the arena allocates itself never leave it
and have no name.
-/

namespace PolygonArb

open Word IndexTable

/-- `Arc<PoolState>` with the identity of its allocation; `none` is an allocation of the arena's
own, which no caller holds. -/
structure PoolArc where
  cell : Option ℕ
  state : PoolState
  deriving DecidableEq

/-- `Arc::ptr_eq`. -/
def PoolArc.ptrEq (a b : PoolArc) : Bool := a.cell.isSome && a.cell = b.cell

/-- `Arc::new`. -/
def PoolArc.new (state : PoolState) : PoolArc := ⟨none, state⟩

/-- One `Hasher` call of the fingerprint. -/
inductive HashWrite
  | u32 (n : ℕ)
  | bytes (addr : Address)
  | usize (n : ℕ)
  | u8 (n : ℕ)
  deriving DecidableEq

/-- `FxHasher`: the digest of a sequence of writes. -/
abbrev FxHasher := List HashWrite → BitVec 64

structure ArenaInner where
  tokens : List Address
  tokenDecimals : List ℕ
  pools : List PoolArc
  poolAddresses : List Address
  addressToPool : Address → Option PoolIndex
  addressToToken : Address → Option TokenIndex
  layoutFingerprint : BitVec 64

/-- `ArenaInner::default()`; its fingerprint field is zero. -/
def ArenaInner.empty : ArenaInner where
  tokens := []
  tokenDecimals := []
  pools := []
  poolAddresses := []
  addressToPool := fun _ => none
  addressToToken := fun _ => none
  layoutFingerprint := 0

/-- The writes behind `compute_layout_fingerprint`. -/
def layoutWrites (inner : ArenaInner) : List HashWrite :=
  .u32 (inner.tokens.length % 2 ^ 32) :: inner.tokens.map .bytes
    ++ .usize inner.pools.length
      :: (inner.poolAddresses.zip inner.pools).flatMap fun (addr, pool) =>
          [.bytes addr, .u8 pool.state.familyTag]

def computeLayoutFingerprint (fx : FxHasher) (inner : ArenaInner) : BitVec 64 :=
  fx (layoutWrites inner)

/-- `inner.layout_fingerprint = compute_layout_fingerprint(inner)`. -/
def ArenaInner.refreshFingerprint (fx : FxHasher) (inner : ArenaInner) : ArenaInner :=
  { inner with layoutFingerprint := computeLayoutFingerprint fx inner }

/-- Same simulation family; an invalid state is compatible with every family. -/
def poolStateFamilyCompatible : PoolState → PoolState → Bool
  | .invalid, _ | _, .invalid => true
  | prior, incoming => prior.familyTag = incoming.familyTag

/-- Keep hydrated tick arrays when the replacement has none. -/
def preserveClTicksOnReplace (prior : Option PoolState) (incoming : PoolArc) : PoolArc :=
  match prior, incoming.state with
  | some (.v3 old), .v3 new =>
      if !old.ticks.isEmpty && new.ticks.isEmpty then .new (.v3 { new with ticks := old.ticks })
      else incoming
  | some (.v4 old), .v4 new =>
      if !old.ticks.isEmpty && new.ticks.isEmpty then .new (.v4 { new with ticks := old.ticks })
      else incoming
  | _, _ => incoming

/-! ## What the arena reads: discovery rows and the state cache -/

structure DiscoveredPool where
  address : Address
  protocol : ProtocolType
  tokens : List Address
  feeBps : ℕ
  tickSpacing : Option ℤ

structure PoolMeta where
  poolIndex : PoolIndex
  protocol : ProtocolType
  tokens : List TokenIndex
  feeBps : ℕ
  bptIndex : Option ℕ
  tickSpacing : Option ℤ

/-- A row of the cache; `live` is `updated_at.elapsed() <= ttl` at the time it is read. -/
structure CacheEntry where
  address : Address
  state : PoolArc
  revision : ℕ
  live : Bool

/-- The cache under its read lock, in iteration order. -/
structure StateCache where
  entries : List CacheEntry
  generation : ℕ

/-- A tradable pool with its discovery index. -/
structure TradableRow where
  index : ℕ
  address : Address
  state : PoolArc

/-- Token decimals by address. -/
abbrev DecimalHints := Option (Address → Option ℕ)

namespace StateCache

/-- Tradable pools sorted by discovery index. -/
def tradableByDiscoveryIndex (cache : StateCache) (addressIndex : Address → Option ℕ) :
    List TradableRow :=
  let out := (cache.entries.filter fun entry => entry.live && entry.state.state.isTradable).filterMap
    fun entry => (addressIndex entry.address).map fun idx => ⟨idx, entry.address, entry.state⟩
  out.mergeSort fun a b => a.index ≤ b.index

/-- Unexpired states of the given addresses, with their revisions. -/
def getArcs (cache : StateCache) (addresses : List Address) : List (Address × PoolArc × ℕ) :=
  addresses.filterMap fun address =>
    (cache.entries.find? (·.address = address)).bind fun entry =>
      if entry.live then some (address, entry.state, entry.revision) else none

end StateCache

/-- The token list a pool's indices follow: the hydrated one where the family has it. -/
def poolTokenAddrs (state : PoolState) (pool : DiscoveredPool) : List Address :=
  match state with
  | .balancer b => if b.tokens.isEmpty then pool.tokens else b.tokens
  | .woofi w => if w.tokens.isEmpty then pool.tokens else w.tokens
  | .dodo d =>
      if d.baseToken ≠ 0 ∧ d.quoteToken ≠ 0 then [d.baseToken, d.quoteToken] else pool.tokens
  | _ => pool.tokens

def maxSupportedTokenDecimals : ℕ := 30

/-- Decimals of the first two tokens, eighteen where no hint is known. -/
def pairInputDecimals (pool : DiscoveredPool) (hints : DecimalHints) : Option (ℕ × ℕ) := do
  let a0 ← pool.tokens[0]?
  let a1 ← pool.tokens[1]?
  match hints with
  | none => some (18, 18)
  | some h =>
      let d0 := (h a0).getD 18
      let d1 := (h a1).getD 18
      if maxSupportedTokenDecimals < d0 ∨ maxSupportedTokenDecimals < d1 then none
      else some (d0, d1)

def syncPoolGraphEligible (state : PoolState) (pool : DiscoveredPool) (hints : DecimalHints) :
    Run Bool :=
  let bptHint := match state with
    | .balancer b => b.bptIndex
    | _ => none
  let tokenCount := match state with
    | .balancer b => if b.tokens.isEmpty then pool.tokens.length else b.tokens.length
    | .woofi w => if w.tokens.isEmpty then pool.tokens.length else w.tokens.length
    | _ => pool.tokens.length
  poolStateGraphEligible state pool.protocol tokenCount bptHint pool.feeBps
    (pairInputDecimals pool hints)

def discoveredToPoolMeta (pool : DiscoveredPool) (poolIndex : PoolIndex)
    (tokenIndices : List TokenIndex) : PoolMeta where
  poolIndex := poolIndex
  protocol := pool.protocol
  tokens := tokenIndices
  feeBps := pool.feeBps
  bptIndex := if pool.protocol = .balancerV2 then pool.tokens.findIdx? (· = pool.address) else none
  tickSpacing := pool.tickSpacing

/-- The meta row of a synced pool: the arena family overrides the discovery label. -/
def poolMetaFromSynced (pool : DiscoveredPool) (poolIndex : PoolIndex)
    (tokenIndices : List TokenIndex) (state : PoolState) : PoolMeta :=
  let row := discoveredToPoolMeta pool poolIndex tokenIndices
  let row :=
    if protocolMatchesPoolState row.protocol state then row
    else { row with protocol := protocolFromPoolState state row.protocol }
  match state with
  | .balancer b => if row.protocol = .balancerV2 then { row with bptIndex := b.bptIndex } else row
  | _ => row

/-! ## The arena -/

structure StateArena where
  inner : ArenaInner
  hotOverlay : List (Option PoolArc)
  hotRevisions : List ℕ

structure ArenaSyncReport where
  metas : List PoolMeta
  indicesRebuilt : Bool
  invalidatedPoolIndices : List PoolIndex

namespace StateArena

variable (fx : FxHasher) (arena : StateArena)

def default : StateArena where
  inner := ArenaInner.empty.refreshFingerprint fx
  hotOverlay := []
  hotRevisions := []

/-- The overlay is not cloned. -/
def clone : StateArena := { arena with hotOverlay := [], hotRevisions := [] }

def tokenAddress (index : TokenIndex) : Option Address := arena.inner.tokens[index]?

def tokenDecimals (index : TokenIndex) : ℕ := (arena.inner.tokenDecimals[index]?).getD 18

/-- The hot overlay first, then the base table. -/
def poolState (index : PoolIndex) : Option PoolState :=
  match arena.hotOverlay[index]?.join with
  | some hot => some hot.state
  | none => arena.inner.pools[index]?.map PoolArc.state

def spotProbeForToken (token : TokenIndex) : U256 := spotProbeForDecimals (arena.tokenDecimals token)

/-- `pool_state_mut`, with what the caller does to the state it hands out.  A hot overlay is moved
into the table first. -/
def poolStateMut (index : PoolIndex) (edit : PoolState → PoolState) : StateArena :=
  let pools := match arena.hotOverlay[index]?.join with
    | some hot => arena.inner.pools.set index hot
    | none => arena.inner.pools
  { arena with
    inner := { arena.inner with pools := pools.modify index fun slot => .new (edit slot.state) }
    hotOverlay := arena.hotOverlay.set index none }

variable {index : PoolIndex}

lemma exists_poolState {slot : PoolArc} (h : arena.inner.pools[index]? = some slot) :
    ∃ state, arena.poolState index = some state := by
  rw [poolState, h]
  split
  · exact ⟨_, rfl⟩
  · exact ⟨_, rfl⟩

lemma length_pools_poolStateMut (edit : PoolState → PoolState) :
    (arena.poolStateMut index edit).inner.pools.length = arena.inner.pools.length := by
  rw [poolStateMut]
  dsimp only
  rw [List.length_modify]
  split
  · exact List.length_set
  · rfl

/-- The edited slot holds what was seen there, the overlay moved in. -/
lemma getElem?_poolStateMut_self (edit : PoolState → PoolState) :
    (arena.poolStateMut index edit).inner.pools[index]? =
      arena.inner.pools[index]?.bind fun _ => (arena.poolState index).map fun state => .new (edit state) := by
  rw [poolStateMut, poolState]
  dsimp only
  rw [List.getElem?_modify_eq]
  cases arena.hotOverlay[index]?.join with
  | none =>
      dsimp only
      cases arena.inner.pools[index]? with
      | none => rfl
      | some slot => rfl
  | some hot =>
      dsimp only
      cases hslot : arena.inner.pools[index]? with
      | none =>
          rw [List.getElem?_eq_none (by rw [List.length_set]; exact List.getElem?_eq_none_iff.mp hslot)]
          rfl
      | some slot =>
          rw [List.getElem?_set_self (List.getElem?_eq_some_iff.mp hslot).1]
          rfl

lemma getElem?_poolStateMut_ne {j : PoolIndex} (h : index ≠ j) (edit : PoolState → PoolState) :
    (arena.poolStateMut index edit).inner.pools[j]? = arena.inner.pools[j]? := by
  rw [poolStateMut]
  dsimp only
  rw [List.getElem?_modify_ne _ _ h]
  split
  · rw [List.getElem?_set_ne h]
  · rfl

def registerTokenWithHintsInner (address : Address) (hints : DecimalHints) (touchLayout : Bool) :
    TokenIndex × StateArena :=
  match arena.inner.addressToToken address with
  | some idx =>
      match hints.bind (· address) with
      | some dec =>
          (idx, { arena with
            inner := { arena.inner with
              tokenDecimals := arena.inner.tokenDecimals.set idx dec } })
      | none => (idx, arena)
  | none =>
      let idx := arena.inner.tokens.length % 2 ^ 32
      let dec := (hints.bind (· address)).getD 18
      let inner := { arena.inner with
        tokens := arena.inner.tokens ++ [address]
        tokenDecimals := arena.inner.tokenDecimals ++ [dec]
        addressToToken := Function.update arena.inner.addressToToken address (some idx) }
      (idx, { arena with inner := if touchLayout then inner.refreshFingerprint fx else inner })

def registerToken (address : Address) : TokenIndex × StateArena :=
  arena.registerTokenWithHintsInner fx address none true

def clearHotSlot (index : PoolIndex) : StateArena :=
  { arena with
    hotOverlay := arena.hotOverlay.set index none
    hotRevisions := arena.hotRevisions.set index 0 }

def registerPoolInner (address : Address) (state : PoolArc) (touchLayout : Bool) :
    PoolIndex × StateArena :=
  match arena.inner.addressToPool address with
  | some idx =>
      let prior := arena.inner.pools[idx]?
      let same := prior.any (·.ptrEq state)
      let familyFlip := prior.any fun p => !poolStateFamilyCompatible p.state state.state
      let inner := { arena.inner with pools := arena.inner.pools.set idx state }
      let updated : StateArena :=
        if same then arena
        else { arena with
          inner := if familyFlip || touchLayout then inner.refreshFingerprint fx else inner }
      (idx, updated.clearHotSlot idx)
  | none =>
      let idx := arena.inner.pools.length % 2 ^ 32
      let inner := { arena.inner with
        pools := arena.inner.pools ++ [state]
        poolAddresses := arena.inner.poolAddresses ++ [address]
        addressToPool := Function.update arena.inner.addressToPool address (some idx) }
      (idx, { arena with inner := if touchLayout then inner.refreshFingerprint fx else inner })

def registerPool (address : Address) (state : PoolArc) : PoolIndex × StateArena :=
  arena.registerPoolInner fx address state true

def recomputeLayoutFingerprint : StateArena :=
  { arena with inner := arena.inner.refreshFingerprint fx }

/-! ### Hot overlay -/

/-- `Vec::resize`. -/
def resizeTo {α : Type} (xs : List α) (n : ℕ) (fill : α) : List α :=
  xs.take n ++ List.replicate (n - xs.length) fill

def ensureHotStorage : StateArena :=
  let poolCount := arena.inner.pools.length
  if arena.hotOverlay.length = poolCount then arena
  else { arena with
    hotOverlay := resizeTo arena.hotOverlay poolCount none
    hotRevisions := resizeTo arena.hotRevisions poolCount 0 }

/-- One address of the overlay refresh.  A state of another family is not taken over. -/
def applyHotState (fresh : Address → Option (PoolArc × ℕ)) (address : Address) : StateArena :=
  match arena.inner.addressToPool address with
  | none => arena
  | some slot =>
      match fresh address with
      | none => arena.clearHotSlot slot
      | some (state, revision) =>
          let prior := arena.poolState slot
          if prior.any fun p => !poolStateFamilyCompatible p state.state then arena
          else { arena with
            hotOverlay := arena.hotOverlay.set slot (some (preserveClTicksOnReplace prior state))
            hotRevisions := arena.hotRevisions.set slot revision }

/-- The cache rows as a map. -/
def freshStates (rows : List (Address × PoolArc × ℕ)) : Address → Option (PoolArc × ℕ) :=
  rows.foldl (fun fresh row => Function.update fresh row.1 (some row.2)) fun _ => none

/-- Overlay fresh states; answers the cache generation they were read at. -/
def applyHotCacheUnique (cache : StateCache) (addresses : List Address) : ℕ × StateArena :=
  if addresses.isEmpty then (cache.generation, arena)
  else
    let fresh := freshStates (cache.getArcs addresses)
    (cache.generation,
      addresses.foldl (fun a address => a.applyHotState fresh address) arena.ensureHotStorage)

def applyHotCache (cache : StateCache) (addresses : List Address) : ℕ × StateArena :=
  arena.applyHotCacheUnique cache (addresses.mergeSort fun a b => a ≤ b).eraseReps

/-! ### Discovery sync -/

def tokenIndicesFor (hints : DecimalHints) (touchLayout : Bool) :
    List Address → StateArena → List TokenIndex × StateArena
  | [], arena => ([], arena)
  | addr :: rest, arena =>
      let (idx, arena) := arena.registerTokenWithHintsInner fx addr hints touchLayout
      let (indices, arena) := tokenIndicesFor hints touchLayout rest arena
      (idx :: indices, arena)

def tokenIndicesForPool (state : PoolState) (pool : DiscoveredPool) (hints : DecimalHints)
    (touchLayout : Bool) : List TokenIndex × StateArena :=
  tokenIndicesFor fx hints touchLayout (poolTokenAddrs state pool) arena

def appendSyncedPool (pool : DiscoveredPool) (state : PoolArc) (hints : DecimalHints)
    (touchLayout : Bool) : PoolMeta × StateArena :=
  let (poolIndex, arena) := arena.registerPoolInner fx pool.address state touchLayout
  let (tokenIndices, arena) := arena.tokenIndicesForPool fx state.state pool hints touchLayout
  (poolMetaFromSynced pool poolIndex tokenIndices state.state, arena)

/-- Refresh of one slot: the state, the overlay, the tokens it names. -/
def refreshSlot (pool : DiscoveredPool) (hints : DecimalHints) (i : ℕ) (state : PoolArc) :
    PoolMeta × StateArena :=
  let slot := arena.inner.pools[i]?
  let refreshed : StateArena :=
    if slot.any (·.ptrEq state) then arena
    else { arena with
      inner := { arena.inner with
        pools := arena.inner.pools.set i
          (preserveClTicksOnReplace (slot.map PoolArc.state) state) } }
  let (tokenIndices, arena) :=
    (refreshed.clearHotSlot (i % 2 ^ 32)).tokenIndicesForPool fx state.state pool hints false
  (poolMetaFromSynced pool (i % 2 ^ 32) tokenIndices state.state, arena)

/-- The loop of `sync_tradable_inplace`, from slot `i` on. -/
def syncTradableInplaceFrom (pools : List DiscoveredPool) (hints : DecimalHints) :
    ℕ → List TradableRow → StateArena → List PoolMeta × StateArena
  | _, [], arena => ([], arena)
  | i, row :: rest, arena =>
      match pools[row.index]? with
      | none => syncTradableInplaceFrom pools hints (i + 1) rest arena
      | some pool =>
          let (poolMeta, arena) := arena.refreshSlot fx pool hints i row.state
          let (metas, arena) := syncTradableInplaceFrom pools hints (i + 1) rest arena
          (poolMeta :: metas, arena)

/-- Refresh the slots in place.  The fingerprint is left as it is. -/
def syncTradableInplace (tradable : List TradableRow) (pools : List DiscoveredPool)
    (hints : DecimalHints) : List PoolMeta × StateArena :=
  syncTradableInplaceFrom fx pools hints 0 tradable arena

/-- The append loops of the sync: admit eligible rows until the cap is reached; `novelOnly` skips
the ones that have a slot.  Answers how many were added. -/
def appendTradable (pools : List DiscoveredPool) (hints : DecimalHints) (novelOnly : Bool) :
    ℕ → List TradableRow → StateArena → Run (ℕ × List PoolMeta × StateArena)
  | _, [], arena => some (0, [], arena)
  | 0, _ :: _, arena => some (0, [], arena)
  | room + 1, row :: rest, arena =>
      if novelOnly && (arena.inner.addressToPool row.address).isSome then
        appendTradable pools hints novelOnly (room + 1) rest arena
      else
        match pools[row.index]? with
        | none => appendTradable pools hints novelOnly (room + 1) rest arena
        | some pool => do
            let eligible ← syncPoolGraphEligible row.state.state pool hints
            if eligible then do
              let (poolMeta, arena) := arena.appendSyncedPool fx pool row.state hints false
              let (added, metas, arena) ← appendTradable pools hints novelOnly room rest arena
              some (added + 1, poolMeta :: metas, arena)
            else appendTradable pools hints novelOnly (room + 1) rest arena

def attachBatchCap : ℕ := 1024

def arenaRebuildCap : ℕ := 4096

/-- Admit tradable pools not yet in the arena. -/
def appendNovelTradable (tradable : List TradableRow) (pools : List DiscoveredPool)
    (hints : DecimalHints) : Run (List PoolMeta × StateArena) := do
  let (added, metas, arena) ← appendTradable fx pools hints true attachBatchCap tradable arena
  some (metas, if 0 < added then arena.recomputeLayoutFingerprint fx else arena)

/-- Current membership in slot order; a pool that left the tradable set turns invalid.  Answers the
rows and the slots it invalidated. -/
def frozenRows (tradable : List TradableRow) (addressIndex : Address → Option ℕ) :
    ℕ → List Address → List PoolArc → Run (List TradableRow × List PoolIndex)
  | _, _, [] => some ([], [])
  | _, [], _ :: _ => none
  | i, addr :: addrs, prior :: priors => do
      let (row, gone) ←
        match tradable.reverse.find? (·.address = addr) with
        | some row => some (⟨row.index, addr, row.state⟩, false)
        | none => (addressIndex addr).map fun idx =>
            if prior.state = .invalid then (⟨idx, addr, prior⟩, false)
            else (⟨idx, addr, .new .invalid⟩, true)
      let (rows, invalidated) ← frozenRows tradable addressIndex (i + 1) addrs priors
      some (row :: rows, if gone then i % 2 ^ 32 :: invalidated else invalidated)

/-- Refresh the current membership only. -/
def syncFrozenMembership (tradable : List TradableRow) (pools : List DiscoveredPool)
    (addressIndex : Address → Option ℕ) (hints : DecimalHints) :
    Run (List PoolMeta × List PoolIndex × StateArena) := do
  let (ordered, invalidated) ←
    frozenRows tradable addressIndex 0 arena.inner.poolAddresses arena.inner.pools
  let (metas, arena) := arena.syncTradableInplace fx ordered pools hints
  some (metas, invalidated, arena)

/-- Refresh the shared prefix in place, append the rest. -/
def syncTradableAppend (tradable : List TradableRow) (pools : List DiscoveredPool)
    (hints : DecimalHints) (prefixLen : ℕ) : Run (List PoolMeta × StateArena) := do
  let (metas, arena) := arena.syncTradableInplace fx (tradable.take prefixLen) pools hints
  let (_, tail, arena) ←
    appendTradable fx pools hints false attachBatchCap (tradable.drop prefixLen) arena
  some (metas ++ tail, arena.recomputeLayoutFingerprint fx)

/-- Wipe and rebuild. -/
def rebuild (tradable : List TradableRow) (pools : List DiscoveredPool) (hints : DecimalHints) :
    Run (List PoolMeta × StateArena) := do
  let (_, metas, arena) ←
    appendTradable fx pools hints false arenaRebuildCap tradable ⟨ArenaInner.empty, [], []⟩
  some (metas, arena.recomputeLayoutFingerprint fx)

inductive ArenaReuse
  | exact
  | prefixReuse (prefixLen : ℕ)
  | rebuild
  deriving DecidableEq

/-- Slot by slot, the rows name the pools of the arena and are still eligible. -/
def rowsMatchSlots (pools : List DiscoveredPool) (hints : DecimalHints) :
    ℕ → List TradableRow → Run Bool
  | _, [] => some true
  | i, row :: rest =>
      if arena.inner.poolAddresses[i]? ≠ some row.address then some false
      else
        match pools[row.index]? with
        | none => some false
        | some pool => do
            let eligible ← syncPoolGraphEligible row.state.state pool hints
            if eligible && (arena.inner.addressToPool row.address).isSome then
              rowsMatchSlots pools hints (i + 1) rest
            else some false

def arenaReuseForTradable (tradable : List TradableRow) (pools : List DiscoveredPool)
    (hints : DecimalHints) : Run ArenaReuse :=
  let existing := arena.inner.pools.length
  if existing = 0 then some (if tradable.isEmpty then .exact else .rebuild)
  else if tradable.length < existing then some .rebuild
  else do
    let same ← arena.rowsMatchSlots pools hints 0 (tradable.take existing)
    if same then some (if tradable.length = existing then .exact else .prefixReuse existing)
    else some .rebuild

/-- The full sync, after the cache has answered its tradable rows. -/
def syncTradable (tradable : List TradableRow) (pools : List DiscoveredPool)
    (addressIndex : Address → Option ℕ) (hints : DecimalHints) (freezeAppend : Bool) :
    Run (ArenaSyncReport × StateArena) := do
  let reuse ← arena.arenaReuseForTradable tradable pools hints
  match reuse with
  | .exact =>
      let (metas, arena) := arena.syncTradableInplace fx tradable pools hints
      some (⟨metas, false, []⟩, arena)
  | .prefixReuse prefixLen =>
      if freezeAppend then
        let (metas, arena) := arena.syncTradableInplace fx (tradable.take prefixLen) pools hints
        some (⟨metas, false, []⟩, arena)
      else do
        let (metas, arena) ← arena.syncTradableAppend fx tradable pools hints prefixLen
        some (⟨metas, false, []⟩, arena)
  | .rebuild =>
      if !arena.inner.pools.isEmpty
          && arena.inner.poolAddresses.all fun address => (addressIndex address).isSome then do
        let (metas, invalidated, arena) ←
          arena.syncFrozenMembership fx tradable pools addressIndex hints
        let (novel, arena) ← arena.appendNovelTradable fx tradable pools hints
        some (⟨metas ++ novel, false, invalidated⟩, arena)
      else do
        let (metas, arena) ← rebuild fx tradable pools hints
        some (⟨metas, true, []⟩, arena)

def syncFromDiscoveryGated (cache : StateCache) (pools : List DiscoveredPool)
    (addressIndex : Address → Option ℕ) (hints : DecimalHints) (freezeAppend : Bool) :
    Run (ArenaSyncReport × StateArena) :=
  arena.syncTradable fx (cache.tradableByDiscoveryIndex addressIndex) pools addressIndex hints
    freezeAppend

end StateArena

end PolygonArb

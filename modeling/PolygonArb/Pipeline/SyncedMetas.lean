import PolygonArb.Pipeline.ArenaStability

/-!
# The rows a sync hands out

A sync answers one `PoolMeta` for every pool it refreshed or admitted.  `MetaFits` relates such a row
to the arena it was made from: its slot holds a state, nothing is laid over it, and a valid state is
of the family the row's protocol names.  One step of a sync makes a row that fits and disturbs no
other slot, so all rows of a sync fit the arena it ends with.  They are of different pools
(`Ascending`): the slots that are kept are refreshed in their order, and a pool that is admitted has
the next slot.

The rows that come in are those of real callers: the cache is a map, the discovery index points at
rows of the address it is asked for, and an allocation has one content.
-/

namespace PolygonArb

open Word IndexTable

/-- One allocation, one content. -/
def PoolArc.At (heap : ℕ → PoolState) (arc : PoolArc) : Prop :=
  ∀ cell, arc.cell = some cell → arc.state = heap cell

lemma PoolArc.At.state_eq {heap : ℕ → PoolState} {a b : PoolArc} (ha : a.At heap) (hb : b.At heap)
    (h : a.ptrEq b = true) : a.state = b.state := by
  simp only [ptrEq, Bool.and_eq_true, decide_eq_true_eq] at h
  rcases Option.isSome_iff_exists.mp h.1 with ⟨cell, hcell⟩
  rw [ha cell hcell, hb cell (h.2.symm.trans hcell)]

lemma PoolArc.At.new (heap : ℕ → PoolState) (state : PoolState) : (PoolArc.new state).At heap := by
  intro cell hcell
  exact absurd hcell (by simp [PoolArc.new])

/-- The cache is a hash map of shared states. -/
structure StateCache.Sound (heap : ℕ → PoolState) (cache : StateCache) : Prop where
  keys : (cache.entries.map CacheEntry.address).Nodup
  arcs : ∀ entry ∈ cache.entries, entry.state.At heap

/-- The address index points at discovery rows of that address. -/
def DiscoveryIndex (pools : List DiscoveredPool) (addressIndex : Address → Option ℕ) : Prop :=
  ∀ address index pool, addressIndex address = some index → pools[index]? = some pool →
    pool.address = address

/-- Rows as the cache answers them: their states are shared ones and their discovery rows are theirs. -/
structure RowOk (heap : ℕ → PoolState) (pools : List DiscoveredPool) (row : TradableRow) : Prop where
  arc : row.state.At heap
  pool : ∀ pool, pools[row.index]? = some pool → pool.address = row.address

section Rows

variable {heap : ℕ → PoolState} {cache : StateCache} {pools : List DiscoveredPool}
  {addressIndex : Address → Option ℕ}

lemma mem_tradableByDiscoveryIndex {row : TradableRow}
    (h : row ∈ cache.tradableByDiscoveryIndex addressIndex) :
    ∃ entry ∈ cache.entries, entry.address = row.address ∧ entry.state = row.state ∧
      addressIndex row.address = some row.index := by
  rw [StateCache.tradableByDiscoveryIndex, List.mem_mergeSort, List.mem_filterMap] at h
  rcases h with ⟨entry, hentry, hrow⟩
  rcases Option.map_eq_some_iff.mp hrow with ⟨index, hindex, rfl⟩
  exact ⟨entry, List.mem_of_mem_filter hentry, rfl, rfl, hindex⟩

lemma rowOk_tradable (hcache : cache.Sound heap) (hindex : DiscoveryIndex pools addressIndex)
    {row : TradableRow} (h : row ∈ cache.tradableByDiscoveryIndex addressIndex) :
    RowOk heap pools row := by
  rcases mem_tradableByDiscoveryIndex h with ⟨entry, hentry, -, hstate, hidx⟩
  refine ⟨?_, fun pool hpool => hindex _ _ pool hidx hpool⟩
  rw [← hstate]
  exact hcache.arcs entry hentry

lemma nodup_tradable (hcache : cache.Sound heap) :
    ((cache.tradableByDiscoveryIndex addressIndex).map TradableRow.address).Nodup := by
  have hperm := (List.mergeSort_perm ((cache.entries.filter fun entry =>
      entry.live && entry.state.state.isTradable).filterMap fun entry =>
        (addressIndex entry.address).map fun idx => (⟨idx, entry.address, entry.state⟩ : TradableRow))
      fun a b => a.index ≤ b.index).map TradableRow.address
  refine hperm.nodup_iff.mpr ?_
  rw [List.map_filterMap]
  -- The addresses that are left are those of some of the entries, in their order.
  have hsub : ((cache.entries.filter fun entry =>
      entry.live && entry.state.state.isTradable).filterMap fun entry =>
        ((addressIndex entry.address).map fun idx =>
          (⟨idx, entry.address, entry.state⟩ : TradableRow)).map TradableRow.address).Sublist
      (cache.entries.map CacheEntry.address) := by
    rw [List.filterMap_filter]
    generalize cache.entries = entries
    induction entries with
    | nil => exact List.Sublist.refl _
    | cons entry rest ih =>
        rw [List.filterMap_cons, List.map_cons]
        split
        · exact ih.cons _
        · rename_i address haddress
          have : address = entry.address := by
            split at haddress
            · cases hidx : addressIndex entry.address with
              | none => simp [hidx] at haddress
              | some idx => simpa [hidx] using haddress.symm
            · exact absurd haddress (by simp)
          rw [this]
          exact ih.cons_cons _
  exact hsub.nodup hcache.keys

end Rows

/-- The slot of the row holds a state that nothing is laid over, of the row's family if valid. -/
structure MetaFits (arena : StateArena) (row : PoolMeta) : Prop where
  bare : arena.hotOverlay[row.poolIndex]?.join = none
  slot : ∃ entry, arena.inner.pools[row.poolIndex]? = some entry ∧
    (entry.state ≠ .invalid → protocolMatchesPoolState row.protocol entry.state = true)

/-- `next` has the slots of `arena` but perhaps for one. -/
structure SlotsKept (arena next : StateArena) (except : ℕ) : Prop where
  overlay : ∀ j, j ≠ except → next.hotOverlay[j]? = arena.hotOverlay[j]?
  pools : ∀ j, j ≠ except → ∀ entry, arena.inner.pools[j]? = some entry →
    next.inner.pools[j]? = some entry

lemma MetaFits.kept {arena next : StateArena} {except : ℕ} {row : PoolMeta}
    (h : MetaFits arena row) (hkept : SlotsKept arena next except) (hne : row.poolIndex ≠ except) :
    MetaFits next row := by
  rcases h.slot with ⟨entry, hentry, hmatch⟩
  exact ⟨by rw [hkept.overlay _ hne]; exact h.bare, entry, hkept.pools _ hne entry hentry, hmatch⟩

/-- The protocol a valid state implies is one of its family. -/
lemma protocolFromPoolState_matches {state : PoolState} (fallback : ProtocolType)
    (h : state ≠ .invalid) :
    protocolMatchesPoolState (protocolFromPoolState state fallback) state = true := by
  cases state with
  | invalid => exact absurd rfl h
  | curve s => cases fallback <;> rfl
  | _ => rfl

/-- The family of a state decides which protocols match it. -/
lemma matches_of_familyTag {protocol : ProtocolType} {a b : PoolState}
    (h : a.familyTag = b.familyTag) :
    protocolMatchesPoolState protocol a = protocolMatchesPoolState protocol b := by
  cases a <;> cases b <;> simp [PoolState.familyTag] at h <;> cases protocol <;> rfl

lemma poolMetaFromSynced_fields (pool : DiscoveredPool) (index : PoolIndex)
    (tokens : List TokenIndex) (state : PoolState) :
    (poolMetaFromSynced pool index tokens state).poolIndex = index ∧
      (poolMetaFromSynced pool index tokens state).tokens = tokens ∧
      (poolMetaFromSynced pool index tokens state).protocol =
        if protocolMatchesPoolState pool.protocol state then pool.protocol
        else protocolFromPoolState state pool.protocol := by
  cases hmatch : protocolMatchesPoolState pool.protocol state
  · cases state with
    | balancer b => simp [poolMetaFromSynced, discoveredToPoolMeta, hmatch, protocolFromPoolState]
    | _ => simp [poolMetaFromSynced, discoveredToPoolMeta, hmatch]
  · cases state with
    | balancer b =>
        simp only [poolMetaFromSynced, discoveredToPoolMeta, hmatch, if_true]
        split <;> exact ⟨rfl, rfl, rfl⟩
    | _ => simp [poolMetaFromSynced, discoveredToPoolMeta, hmatch]

lemma protocol_poolMetaFromSynced (pool : DiscoveredPool) (index : PoolIndex)
    (tokens : List TokenIndex) {state : PoolState} (h : state ≠ .invalid) :
    protocolMatchesPoolState (poolMetaFromSynced pool index tokens state).protocol state = true := by
  rw [(poolMetaFromSynced_fields pool index tokens state).2.2]
  split
  · assumption
  · exact protocolFromPoolState_matches _ h

/-- Every slot holds a shared state or one of the arena's own, and nothing is laid over a slot that
does not exist. -/
structure SlotsOk (heap : ℕ → PoolState) (arena : StateArena) : Prop where
  arcs : ∀ entry ∈ arena.inner.pools, entry.At heap
  overlay : arena.hotOverlay.length ≤ arena.inner.pools.length

namespace StateArena

variable (fx : FxHasher) (arena : StateArena) {heap : ℕ → PoolState}

/-! ## One pool -/

lemma overlay_tokenIndicesFor (hints : DecimalHints) (touch : Bool) (addrs : List Address) :
    ∀ arena : StateArena,
      (tokenIndicesFor fx hints touch addrs arena).2.hotOverlay = arena.hotOverlay := by
  have hone : ∀ (arena : StateArena) (address : Address),
      (arena.registerTokenWithHintsInner fx address hints touch).2.hotOverlay = arena.hotOverlay := by
    intro arena address
    rw [registerTokenWithHintsInner]
    split
    · split <;> rfl
    · rfl
  induction addrs with
  | nil => intro arena; rfl
  | cons addr rest ih =>
      intro arena
      exact (ih _).trans (hone arena addr)

lemma at_preserve {prior : Option PoolState} {incoming : PoolArc} (h : incoming.At heap) :
    (preserveClTicksOnReplace prior incoming).At heap := by
  unfold preserveClTicksOnReplace
  split
  · split
    · exact .new heap _
    · exact h
  · split
    · exact .new heap _
    · exact h
  · exact h

lemma at_refreshedPools {i : ℕ} {state : PoolArc} (hok : SlotsOk heap arena) (h : state.At heap) :
    ∀ entry ∈ arena.refreshedPools i state, entry.At heap := by
  rw [refreshedPools]
  split
  · exact hok.arcs
  · intro entry hentry
    rcases List.mem_or_eq_of_mem_set hentry with hold | rfl
    · exact hok.arcs entry hold
    · exact at_preserve h

/-- The refreshed slot holds a state of the family that came in. -/
lemma getElem?_refreshedPools_self {i : ℕ} {state : PoolArc} (hok : SlotsOk heap arena)
    (h : state.At heap) (hi : i < arena.inner.pools.length) :
    ∃ entry, (arena.refreshedPools i state)[i]? = some entry ∧
      entry.state.familyTag = state.state.familyTag := by
  have hslot := List.getElem?_eq_getElem hi
  rw [refreshedPools, hslot]
  split
  · rename_i hsame
    exact ⟨_, hslot, congrArg _ ((hok.arcs _ (List.getElem_mem hi)).state_eq h hsame)⟩
  · exact ⟨_, List.getElem?_set_self hi, familyTag_preserve _ _⟩

lemma ne_invalid_iff_of_familyTag {a b : PoolState} (h : a.familyTag = b.familyTag) :
    a ≠ .invalid ↔ b ≠ .invalid := by
  cases a <;> cases b <;> simp_all [PoolState.familyTag]

/-- What the refresh of one slot does. -/
structure SlotStep (heap : ℕ → PoolState) (arena : StateArena) (i : ℕ) (row : PoolMeta)
    (next : StateArena) : Prop where
  ok : SlotsOk heap next
  kept : SlotsKept arena next i
  index : row.poolIndex = i
  fits : MetaFits next row

lemma slotStep_refreshSlot (pool : DiscoveredPool) (hints : DecimalHints) {i : ℕ} {state : PoolArc}
    (hok : SlotsOk heap arena) (h : state.At heap) (hi : i < arena.inner.pools.length)
    (hroom : arena.inner.pools.length ≤ 2 ^ 32) :
    SlotStep heap arena i (arena.refreshSlot fx pool hints i state).1
      (arena.refreshSlot fx pool hints i state).2 := by
  have hmod : i % 2 ^ 32 = i := Nat.mod_eq_of_lt (by omega)
  have hpools := (pools_refreshSlot fx arena pool hints i state).1
  have hoverlay : (arena.refreshSlot fx pool hints i state).2.hotOverlay =
      arena.hotOverlay.set i none := by
    rw [refreshSlot]
    dsimp only [tokenIndicesForPool]
    rw [overlay_tokenIndicesFor, clearHotSlot, hmod]
    split <;> rfl
  have hrow : (arena.refreshSlot fx pool hints i state).1.poolIndex = i :=
    (poolMetaFromSynced_fields _ _ _ _).1.trans hmod
  refine ⟨⟨?_, ?_⟩, ⟨?_, ?_⟩, hrow, ⟨?_, ?_⟩⟩
  · rw [hpools]
    exact at_refreshedPools arena hok h
  · rw [hpools, hoverlay, List.length_set, length_refreshedPools]
    exact hok.overlay
  · intro j hj
    rw [hoverlay, List.getElem?_set_ne (Ne.symm hj)]
  · intro j hj entry hentry
    rw [hpools, getElem?_refreshedPools arena _ (Ne.symm hj)]
    exact hentry
  · rw [hrow, hoverlay]
    by_cases hlen : i < arena.hotOverlay.length
    · rw [List.getElem?_set_self hlen]
      rfl
    · rw [List.getElem?_eq_none (by rw [List.length_set]; omega)]
      rfl
  · rcases getElem?_refreshedPools_self arena hok h hi with ⟨entry, hentry, htag⟩
    rw [hrow, hpools]
    refine ⟨entry, hentry, fun hvalid => ?_⟩
    rw [matches_of_familyTag htag]
    exact protocol_poolMetaFromSynced _ _ _ ((ne_invalid_iff_of_familyTag htag).mp hvalid)

/-- Admitting a pool the arena does not know fills the next slot. -/
lemma slotStep_appendSyncedPool (pool : DiscoveredPool) (hints : DecimalHints) {state : PoolArc}
    (hok : SlotsOk heap arena) (h : state.At heap)
    (hnew : arena.inner.addressToPool pool.address = none)
    (hroom : arena.inner.pools.length < 2 ^ 32) :
    SlotStep heap arena arena.inner.pools.length (arena.appendSyncedPool fx pool state hints false).1
      (arena.appendSyncedPool fx pool state hints false).2 := by
  have hmod : arena.inner.pools.length % 2 ^ 32 = arena.inner.pools.length := Nat.mod_eq_of_lt hroom
  have hpools : (arena.appendSyncedPool fx pool state hints false).2.inner.pools =
      arena.inner.pools ++ [state] := by
    rw [appendSyncedPool]
    dsimp only [tokenIndicesForPool]
    rw [(pools_tokenIndicesFor fx hints false _ _).1, registerPoolInner, hnew]
    rfl
  have hoverlay : (arena.appendSyncedPool fx pool state hints false).2.hotOverlay =
      arena.hotOverlay := by
    rw [appendSyncedPool]
    dsimp only [tokenIndicesForPool]
    rw [overlay_tokenIndicesFor, registerPoolInner, hnew]
  have hrow : (arena.appendSyncedPool fx pool state hints false).1.poolIndex =
      arena.inner.pools.length := by
    rw [appendSyncedPool]
    dsimp only
    rw [(poolMetaFromSynced_fields _ _ _ _).1, registerPoolInner, hnew]
    exact hmod
  have hlen := hok.overlay
  refine ⟨⟨?_, ?_⟩, ⟨?_, ?_⟩, hrow, ⟨?_, ?_⟩⟩
  · rw [hpools]
    intro entry hentry
    rcases List.mem_append.mp hentry with hold | hnewer
    · exact hok.arcs entry hold
    · rw [List.mem_singleton.mp hnewer]
      exact h
  · rw [hpools, hoverlay, List.length_append]
    omega
  · intro j _
    rw [hoverlay]
  · intro j _ entry hentry
    rw [hpools, List.getElem?_append_left (List.getElem?_eq_some_iff.mp hentry).1]
    exact hentry
  · rw [hrow, hoverlay, List.getElem?_eq_none hlen]
    rfl
  · rw [hrow, hpools]
    refine ⟨state, by simp, fun hvalid => ?_⟩
    exact protocol_poolMetaFromSynced _ _ _ hvalid

/-! ## The loops of the sync -/

/-- Rows of ascending pools, between two slots. -/
structure Ascending (first last : ℕ) (rows : List PoolMeta) : Prop where
  sorted : rows.Pairwise fun a b => a.poolIndex < b.poolIndex
  bounds : ∀ row ∈ rows, first ≤ row.poolIndex ∧ row.poolIndex < last

namespace Ascending

variable {first mid last : ℕ} {row : PoolMeta} {rows rows' : List PoolMeta}

lemma nil (first last : ℕ) : Ascending first last [] := ⟨.nil, by simp⟩

lemma cons (h : Ascending (first + 1) last rows) (hrow : row.poolIndex = first) (hlast : first < last) :
    Ascending first last (row :: rows) := by
  refine ⟨List.pairwise_cons.mpr ⟨fun r hr => hrow ▸ (h.bounds r hr).1, h.sorted⟩, fun r hr => ?_⟩
  rcases List.mem_cons.mp hr with rfl | hr
  · exact ⟨hrow.ge, hrow ▸ hlast⟩
  · exact ⟨(Nat.le_succ first).trans (h.bounds r hr).1, (h.bounds r hr).2⟩

lemma append (h : Ascending first mid rows) (h' : Ascending mid last rows') (hfirst : first ≤ mid)
    (hlast : mid ≤ last) : Ascending first last (rows ++ rows') := by
  refine ⟨List.pairwise_append.mpr ⟨h.sorted, h'.sorted, fun a ha b hb => ?_⟩, fun r hr => ?_⟩
  · exact (h.bounds a ha).2.trans_le (h'.bounds b hb).1
  · rcases List.mem_append.mp hr with hr | hr
    · exact ⟨(h.bounds r hr).1, (h.bounds r hr).2.trans_le hlast⟩
    · exact ⟨hfirst.trans (h'.bounds r hr).1, (h'.bounds r hr).2⟩

lemma mono {first' last' : ℕ} (h : Ascending first last rows) (hfirst : first' ≤ first)
    (hlast : last ≤ last') : Ascending first' last' rows :=
  ⟨h.sorted, fun r hr => ⟨hfirst.trans (h.bounds r hr).1, (h.bounds r hr).2.trans_le hlast⟩⟩

lemma nodup (h : Ascending first last rows) : (rows.map PoolMeta.poolIndex).Nodup :=
  List.pairwise_map.mpr (h.sorted.imp fun hlt => hlt.ne)

end Ascending

/-- Every row of the in-place refresh fits the arena it ends with and is of the pool of its slot; slots
below the first one are left alone. -/
lemma fits_syncTradableInplaceFrom (pools : List DiscoveredPool) (hints : DecimalHints)
    (rows : List TradableRow) :
    ∀ (i : ℕ) (arena : StateArena), SlotsOk heap arena → (∀ row ∈ rows, row.state.At heap) →
      i + rows.length ≤ arena.inner.pools.length → arena.inner.pools.length ≤ 2 ^ 32 →
      SlotsOk heap (syncTradableInplaceFrom fx pools hints i rows arena).2 ∧
        (∀ row ∈ (syncTradableInplaceFrom fx pools hints i rows arena).1,
          MetaFits (syncTradableInplaceFrom fx pools hints i rows arena).2 row) ∧
        (∀ row, MetaFits arena row → row.poolIndex < i →
          MetaFits (syncTradableInplaceFrom fx pools hints i rows arena).2 row) ∧
        Ascending i (i + rows.length) (syncTradableInplaceFrom fx pools hints i rows arena).1 ∧
        (syncTradableInplaceFrom fx pools hints i rows arena).2.inner.pools.length =
          arena.inner.pools.length := by
  induction rows with
  | nil =>
      intro i arena hok _ _ _
      exact ⟨hok, by simp [syncTradableInplaceFrom], fun _ h _ => h, .nil _ _, rfl⟩
  | cons row rest ih =>
      intro i arena hok hrows hlen hroom
      rw [List.length_cons] at hlen ⊢
      have hrest := fun r hr => hrows r (List.mem_cons_of_mem row hr)
      rw [syncTradableInplaceFrom]
      cases pools[row.index]? with
      | none =>
          rcases ih (i + 1) arena hok hrest (by omega) hroom with ⟨hok', hnew, hold, hasc, hsame⟩
          exact ⟨hok', hnew, fun r hr hi => hold r hr (Nat.lt_succ_of_lt hi),
            hasc.mono (by omega) (by omega), hsame⟩
      | some pool =>
          have hstep := @slotStep_refreshSlot fx arena heap pool hints i row.state hok
            (hrows row List.mem_cons_self) (by omega) hroom
          have hpools : (arena.refreshSlot fx pool hints i row.state).2.inner.pools.length =
              arena.inner.pools.length := by
            rw [(pools_refreshSlot fx arena pool hints i row.state).1, length_refreshedPools]
          rcases ih (i + 1) _ hstep.ok hrest (by omega) (by omega) with
            ⟨hok', hnew, hold, hasc, hsame⟩
          refine ⟨hok', ?_, ?_, (hasc.mono le_rfl (by omega)).cons hstep.index (by omega),
            hsame.trans hpools⟩
          · intro r hr
            rcases List.mem_cons.mp hr with rfl | hr
            · exact hold _ hstep.fits (by rw [hstep.index]; exact Nat.lt_succ_self i)
            · exact hnew r hr
          · intro r hr hi
            exact hold r (hr.kept hstep.kept (Nat.ne_of_lt hi)) (Nat.lt_succ_of_lt hi)

/-- The rows of an append loop name pools the arena does not know, or the loop looks itself. -/
def Unregistered (arena : StateArena) (novelOnly : Bool) (rows : List TradableRow) : Prop :=
  novelOnly = true ∨ (rows.map TradableRow.address).Nodup ∧
    ∀ row ∈ rows, arena.inner.addressToPool row.address = none

variable {arena} in
lemma Unregistered.tail {novelOnly : Bool} {row : TradableRow} {rows : List TradableRow}
    (h : arena.Unregistered novelOnly (row :: rows)) : arena.Unregistered novelOnly rows := by
  rcases h with h | ⟨hnodup, hnone⟩
  · exact .inl h
  · exact .inr ⟨(List.nodup_cons.mp hnodup).2, fun r hr => hnone r (List.mem_cons_of_mem row hr)⟩

lemma addressToPool_appendSyncedPool {pool : DiscoveredPool} (state : PoolArc) (hints : DecimalHints)
    (hnew : arena.inner.addressToPool pool.address = none) {address : Address}
    (h : address ≠ pool.address) :
    (arena.appendSyncedPool fx pool state hints false).2.inner.addressToPool address =
      arena.inner.addressToPool address := by
  rw [appendSyncedPool]
  dsimp only [tokenIndicesForPool]
  rw [(pools_tokenIndicesFor fx hints false _ _).2, registerPoolInner, hnew]
  exact Function.update_of_ne h _ _

/-- The pool of the first row is registered, and the others are as they were. -/
lemma unregistered_appendSyncedPool {novelOnly : Bool} {pool : DiscoveredPool} {row : TradableRow}
    {rest : List TradableRow} (hints : DecimalHints) (haddr : pool.address = row.address)
    (hnew : arena.inner.addressToPool pool.address = none)
    (h : arena.Unregistered novelOnly (row :: rest)) :
    (arena.appendSyncedPool fx pool row.state hints false).2.Unregistered novelOnly rest := by
  rcases h with h | ⟨hnodup, hnone⟩
  · exact .inl h
  · rw [List.map_cons, List.nodup_cons] at hnodup
    refine .inr ⟨hnodup.2, fun r hr => ?_⟩
    rw [addressToPool_appendSyncedPool fx arena row.state hints hnew]
    · exact hnone r (List.mem_cons_of_mem row hr)
    · rintro heq
      exact hnodup.1 (List.mem_map.mpr ⟨r, hr, heq.trans haddr⟩)

/-- The same of an arena whose slots are in order: the slot after the last is the pool's. -/
lemma appendTradable_cases {pools : List DiscoveredPool} {hints : DecimalHints} {novelOnly : Bool}
    {row : TradableRow} {rest : List TradableRow} {room added : ℕ} {metas : List PoolMeta}
    {next : StateArena}
    (h : appendTradable fx pools hints novelOnly room (row :: rest) arena = some (added, metas, next))
    (hok : SlotsOk heap arena) (hrow : RowOk heap pools row)
    (hroom : arena.inner.pools.length < 2 ^ 32) (hunreg : arena.Unregistered novelOnly (row :: rest)) :
    (metas = [] ∧ next = arena) ∨
      (∃ room' added',
        appendTradable fx pools hints novelOnly room' rest arena = some (added', metas, next)) ∨
      ∃ made mid room' added' metas', SlotStep heap arena arena.inner.pools.length made mid ∧
        mid.inner.pools.length ≤ arena.inner.pools.length + 1 ∧ mid.Unregistered novelOnly rest ∧
        appendTradable fx pools hints novelOnly room' rest mid = some (added', metas', next) ∧
        metas = made :: metas' := by
  rcases appendTradable_step h with
    ⟨-, -, rfl, rfl⟩ | ⟨hrest, -⟩ | ⟨pool, _, _, metas', hpool, hnovel, hrest, -, rfl⟩
  · exact .inl ⟨rfl, rfl⟩
  · exact .inr (.inl ⟨_, _, hrest⟩)
  · have haddr := hrow.pool pool hpool
    have hnew : arena.inner.addressToPool pool.address = none := by
      rw [haddr]
      rcases hunreg with rfl | ⟨-, hnone⟩
      · simpa using hnovel
      · exact hnone row List.mem_cons_self
    have hstep := slotStep_appendSyncedPool fx arena pool hints hok hrow.arc hnew hroom
    have hlen := (registers_appendSyncedPool fx arena pool row.state hints false).pools_le
    have hunreg' := unregistered_appendSyncedPool fx arena hints haddr hnew hunreg
    exact .inr (.inr ⟨_, _, _, _, _, hstep, hlen, hunreg', hrest, rfl⟩)

/-- Every row of the append loop fits the arena it ends with, and a pool it admits has the slot after the
last. -/
lemma fits_appendTradable (pools : List DiscoveredPool) (hints : DecimalHints) (novelOnly : Bool)
    (rows : List TradableRow) :
    ∀ (room : ℕ) (arena : StateArena) {added : ℕ} {metas : List PoolMeta} {next : StateArena},
      appendTradable fx pools hints novelOnly room rows arena = some (added, metas, next) →
      SlotsOk heap arena → (∀ row ∈ rows, RowOk heap pools row) →
      arena.inner.pools.length + rows.length ≤ 2 ^ 32 → arena.Unregistered novelOnly rows →
      SlotsOk heap next ∧ (∀ row, MetaFits arena row → MetaFits next row) ∧
        (∀ row ∈ metas, MetaFits next row) ∧ arena.inner.pools.length ≤ next.inner.pools.length ∧
        Ascending arena.inner.pools.length next.inner.pools.length metas := by
  induction rows with
  | nil =>
      intro room arena added metas next h hok _ _ _
      rw [appendTradable] at h
      simp only [Option.some.injEq, Prod.mk.injEq] at h
      rcases h with ⟨-, rfl, rfl⟩
      exact ⟨hok, fun _ h => h, by simp, le_rfl, .nil _ _⟩
  | cons row rest ih =>
      intro room arena added metas next h hok hrows hroom hunreg
      rw [List.length_cons] at hroom
      have hrest := fun r hr => hrows r (List.mem_cons_of_mem row hr)
      rcases appendTradable_cases fx arena h hok (hrows row List.mem_cons_self) (by omega) hunreg with
        ⟨rfl, rfl⟩ | ⟨_, _, h⟩ | ⟨_, _, _, _, _, hstep, hlen, hunreg', happ, rfl⟩
      · exact ⟨hok, fun _ h => h, by simp, le_rfl, .nil _ _⟩
      · exact ih _ _ h hok hrest (by omega) hunreg.tail
      · rcases ih _ _ happ hstep.ok hrest (by omega) hunreg' with ⟨hok', hold, hmetas, hle, hasc⟩
        rcases hstep.fits.slot with ⟨entry, hentry, -⟩
        rw [hstep.index] at hentry
        have hlt := (List.getElem?_eq_some_iff.mp hentry).1
        refine ⟨hok', ?_, ?_, hlt.le.trans hle,
          (hasc.mono hlt le_rfl).cons hstep.index (hlt.trans_le hle)⟩
        · intro r hr
          rcases hr.slot with ⟨slot, hslot, -⟩
          have hlt' := (List.getElem?_eq_some_iff.mp hslot).1
          exact hold r (hr.kept hstep.kept (Nat.ne_of_lt hlt'))
        · intro r hr
          rcases List.mem_cons.mp hr with rfl | hr
          · exact hold _ hstep.fits
          · exact hmetas r hr

lemma frozenRows_spec {tradable : List TradableRow} {addressIndex : Address → Option ℕ}
    (htradable : ∀ row ∈ tradable, row.state.At heap) :
    ∀ (priors : List PoolArc) (addrs : List Address) (i : ℕ) {rows : List TradableRow}
      {invalidated : List PoolIndex}, (∀ entry ∈ priors, entry.At heap) →
      frozenRows tradable addressIndex i addrs priors = some (rows, invalidated) →
      rows.length = priors.length ∧ ∀ row ∈ rows, row.state.At heap := by
  intro priors
  induction priors with
  | nil =>
      intro addrs i rows invalidated _ h
      simp only [frozenRows, Option.some.injEq, Prod.mk.injEq] at h
      rcases h with ⟨rfl, -⟩
      exact ⟨rfl, by simp⟩
  | cons prior rest ih =>
      intro addrs i rows invalidated hpriors h
      cases addrs with
      | nil => simp [frozenRows] at h
      | cons addr addrs =>
          have hcons : ∀ (row : TradableRow) (gone : Bool), row.state.At heap →
              (frozenRows tradable addressIndex (i + 1) addrs rest).bind (fun later =>
                some (row :: later.1, if gone then i % 2 ^ 32 :: later.2 else later.2)) =
                  some (rows, invalidated) →
              rows.length = (prior :: rest).length ∧ ∀ row ∈ rows, row.state.At heap := by
            intro row gone hat heq
            simp only [Option.bind_eq_some_iff, Option.some.injEq, Prod.mk.injEq] at heq
            rcases heq with ⟨⟨later, gone'⟩, hlater, rfl, -⟩
            have hih := ih addrs (i + 1) (fun e he => hpriors e (List.mem_cons_of_mem prior he)) hlater
            refine ⟨by rw [List.length_cons, List.length_cons, hih.1], ?_⟩
            intro r hr
            rcases List.mem_cons.mp hr with rfl | hr
            · exact hat
            · exact hih.2 r hr
          rw [frozenRows] at h
          split at h
          · rename_i found hfound
            exact hcons ⟨found.index, addr, found.state⟩ false
              (htradable found (List.mem_reverse.mp (List.mem_of_find?_eq_some hfound))) h
          · rcases Option.bind_eq_some_iff.mp h with ⟨row, hrow, hrest⟩
            rcases Option.map_eq_some_iff.mp hrow with ⟨idx, -, rfl⟩
            split at hrest
            · exact hcons ⟨idx, addr, prior⟩ false (hpriors prior List.mem_cons_self) hrest
            · exact hcons ⟨idx, addr, .new .invalid⟩ true (.new heap _) hrest

/-! ## Whole syncs -/

lemma rowsMatchSlots_spec {pools : List DiscoveredPool} {hints : DecimalHints} :
    ∀ (rows : List TradableRow) (i : ℕ), arena.rowsMatchSlots pools hints i rows = some true →
      ∀ j row, rows[j]? = some row → arena.inner.poolAddresses[i + j]? = some row.address := by
  intro rows
  induction rows with
  | nil => intro i _ j row hrow; simp at hrow
  | cons first rest ih =>
      intro i h j row hrow
      rw [rowsMatchSlots] at h
      split at h
      · exact absurd h (by simp)
      · rename_i hfirst
        split at h
        · exact absurd h (by simp)
        · simp only [Option.bind_eq_bind, Option.bind_eq_some_iff] at h
          rcases h with ⟨eligible, -, h⟩
          split at h
          · cases j with
            | zero =>
                rw [← Option.some.inj hrow]
                simpa using hfirst
            | succ j =>
                rw [show i + (j + 1) = i + 1 + j by omega]
                exact ih (i + 1) h j row hrow
          · exact absurd h (by simp)

/-- What the choice of the path rests on: an exact match has no more rows than slots, and a shared
part is the whole arena, slot by slot. -/
def ReuseRests (arena : StateArena) (tradable : List TradableRow) : ArenaReuse → Prop
  | .exact => tradable.length ≤ arena.inner.pools.length
  | .prefixReuse n => n = arena.inner.pools.length ∧ n ≤ tradable.length ∧
      ∀ (j : ℕ) (row : TradableRow), (tradable.take n)[j]? = some row →
        arena.inner.poolAddresses[j]? = some row.address
  | .rebuild => True

lemma arenaReuse_spec {tradable : List TradableRow} {pools : List DiscoveredPool}
    {hints : DecimalHints} {reuse : ArenaReuse}
    (h : arena.arenaReuseForTradable tradable pools hints = some reuse) :
    arena.ReuseRests tradable reuse := by
  rw [arenaReuseForTradable] at h
  by_cases hempty : arena.inner.pools.length = 0
  · rw [if_pos hempty] at h
    rw [← Option.some.inj h]
    cases tradable with
    | nil => exact Nat.zero_le _
    | cons row rest => trivial
  rw [if_neg hempty] at h
  by_cases hshort : tradable.length < arena.inner.pools.length
  · rw [if_pos hshort] at h
    rw [← Option.some.inj h]
    trivial
  rw [if_neg hshort, Option.bind_eq_bind, Option.bind_eq_some_iff] at h
  rcases h with ⟨same, hmatch, h⟩
  cases same with
  | false =>
      rw [← Option.some.inj h]
      trivial
  | true =>
      rw [if_pos rfl] at h
      rw [← Option.some.inj h]
      split_ifs with hlen
      · exact hlen.le
      · refine ⟨rfl, by omega, fun j row hrow => ?_⟩
        have hslot := rowsMatchSlots_spec arena _ 0 hmatch j row hrow
        rwa [Nat.zero_add] at hslot

/-- The rows behind the shared part are none of the arena's pools. -/
lemma unregistered_drop {tradable : List TradableRow} {pools : List DiscoveredPool}
    {hints : DecimalHints} {n : ℕ}
    (h : arena.arenaReuseForTradable tradable pools hints = some (.prefixReuse n))
    (htables : arena.inner.TablesOk) (hnodup : (tradable.map TradableRow.address).Nodup) :
    arena.Unregistered false (tradable.drop n) := by
  rcases arenaReuse_spec arena h with ⟨hn, hle, hslots⟩
  have hsplit : ((tradable.take n).map TradableRow.address ++
      (tradable.drop n).map TradableRow.address).Nodup := by
    rw [← List.map_append, List.take_append_drop]
    exact hnodup
  refine .inr ⟨(List.nodup_append.mp hsplit).2.1, fun row hrow => ?_⟩
  cases hidx : arena.inner.addressToPool row.address with
  | none => rfl
  | some k =>
      have hk := (htables.pool row.address k).mp hidx
      have hlt : k < n := by
        rw [hn, htables.pools]
        exact (List.getElem?_eq_some_iff.mp hk).1
      have hlt' : k < tradable.length := lt_of_lt_of_le hlt hle
      have htake : (tradable.take n)[k]? = some (tradable[k]) := by
        rw [List.getElem?_take_of_lt hlt, List.getElem?_eq_getElem]
      have hsame : tradable[k].address = row.address :=
        Option.some.inj ((hslots k _ htake).symm.trans hk)
      exact absurd hsame ((List.nodup_append.mp hsplit).2.2 _
        (List.mem_map_of_mem (List.mem_of_getElem? htake)) _ (List.mem_map_of_mem hrow))

lemma slotsOk_recompute (h : SlotsOk heap arena) : SlotsOk heap (arena.recomputeLayoutFingerprint fx) :=
  ⟨h.arcs, h.overlay⟩

lemma fits_recompute {row : PoolMeta} (h : MetaFits arena row) :
    MetaFits (arena.recomputeLayoutFingerprint fx) row := ⟨h.bare, h.slot⟩

/-- The two loops of a sync: the slots that are kept are refreshed in place, and then pools are
admitted.  A rebuild keeps no slot, and a refresh admits no pool. -/
structure SyncLoops (heap : ℕ → PoolState) (pools : List DiscoveredPool) (hints : DecimalHints)
    (report : ArenaSyncReport) (next start : StateArena) (ordered rows : List TradableRow)
    (novelOnly : Bool) (mid : StateArena) : Prop where
  ok : SlotsOk heap start
  arcs : ∀ row ∈ ordered, row.state.At heap
  kept : ordered.length ≤ start.inner.pools.length
  rowsOk : ∀ row ∈ rows, RowOk heap pools row
  room : start.inner.pools.length + rows.length ≤ 2 ^ 32
  unregistered : (start.syncTradableInplace fx ordered pools hints).2.Unregistered novelOnly rows
  loops : ∃ room added metas,
    appendTradable fx pools hints novelOnly room rows (start.syncTradableInplace fx ordered pools hints).2 =
      some (added, metas, mid) ∧
    report.metas = (start.syncTradableInplace fx ordered pools hints).1 ++ metas
  next : next = mid ∨ next = mid.recomputeLayoutFingerprint fx

section Sync

variable {tradable : List TradableRow} {pools : List DiscoveredPool} {addressIndex : Address → Option ℕ}
  {hints : DecimalHints} {freezeAppend : Bool} {report : ArenaSyncReport} {next : StateArena}

/-- A refresh alone. -/
lemma syncLoops_of_inplace {ordered : List TradableRow} {indicesRebuilt : Bool}
    {invalidated : List PoolIndex} (hok : SlotsOk heap arena) (harcs : ∀ row ∈ ordered, row.state.At heap)
    (hkept : ordered.length ≤ arena.inner.pools.length) (hroom : arena.inner.pools.length ≤ 2 ^ 32) :
    SyncLoops fx heap pools hints
      ⟨(arena.syncTradableInplace fx ordered pools hints).1, indicesRebuilt, invalidated⟩
      (arena.syncTradableInplace fx ordered pools hints).2 arena ordered [] true
      (arena.syncTradableInplace fx ordered pools hints).2 where
  ok := hok
  arcs := harcs
  kept := hkept
  rowsOk := by simp
  room := hroom
  unregistered := .inl rfl
  loops := ⟨0, 0, [], by simp [appendTradable], (List.append_nil _).symm⟩
  next := .inl rfl

variable (h : arena.syncTradable fx tradable pools addressIndex hints freezeAppend = some (report, next))
  (hok : SlotsOk heap arena) (htables : arena.inner.TablesOk)
  (hrows : ∀ row ∈ tradable, RowOk heap pools row)
  (hnodup : (tradable.map TradableRow.address).Nodup)
  (hroom : arena.inner.pools.length + tradable.length ≤ 2 ^ 32)

include h hok htables hrows hnodup hroom

lemma exists_syncLoops :
    ∃ start ordered rows novelOnly mid,
      SyncLoops fx heap pools hints report next start ordered rows novelOnly mid := by
  have hindex := fun rows => (syncTradableInplaceFrom_spec fx pools hints rows 0 arena).2.1
  rcases syncTradable_cases fx arena h with ⟨hreuse, rfl, rfl⟩ | ⟨n, hreuse, -, rfl, rfl⟩ |
    ⟨n, _, metas, mid, hreuse, happ, rfl, rfl⟩ |
    ⟨ordered, _, added, metas, mid, -, -, hfrozen, happ, rfl, rfl⟩ | ⟨_, metas, mid, happ, rfl, rfl⟩
  · exact ⟨_, _, _, _, _, syncLoops_of_inplace fx arena hok (fun row hr => (hrows row hr).arc)
      (arenaReuse_spec arena hreuse) (by omega)⟩
  · rcases arenaReuse_spec arena hreuse with ⟨rfl, -, -⟩
    exact ⟨_, _, _, _, _, syncLoops_of_inplace fx arena hok
      (fun row hr => (hrows row (List.mem_of_mem_take hr)).arc) (List.length_take_le _ _) (by omega)⟩
  · have hfree := unregistered_drop arena hreuse htables hnodup
    rcases arenaReuse_spec arena hreuse with ⟨rfl, -, -⟩
    refine ⟨arena, tradable.take arena.inner.pools.length, tradable.drop arena.inner.pools.length, false, mid,
      hok, fun row hr => (hrows row (List.mem_of_mem_take hr)).arc, List.length_take_le _ _,
      fun row hr => hrows row (List.mem_of_mem_drop hr), by rw [List.length_drop]; omega, ?_,
      ⟨_, _, metas, happ, rfl⟩, .inr rfl⟩
    rw [Unregistered, syncTradableInplace, hindex]
    exact hfree
  · rcases frozenRows_spec (fun row hr => (hrows row hr).arc) _ _ 0 hok.arcs hfrozen with
      ⟨hcount, harcs⟩
    refine ⟨arena, ordered, tradable, true, mid, hok, harcs, hcount.le, hrows, hroom, .inl rfl,
      ⟨_, _, metas, happ, rfl⟩, ?_⟩
    split
    · exact .inr rfl
    · exact .inl rfl
  · have hempty : SlotsOk heap ⟨ArenaInner.empty, [], []⟩ :=
      ⟨fun entry he => absurd he (by simp [ArenaInner.empty]), le_rfl⟩
    refine ⟨⟨ArenaInner.empty, [], []⟩, [], tradable, false, mid, hempty, by simp, Nat.zero_le _, hrows, ?_,
      .inr ⟨hnodup, fun _ _ => rfl⟩, ⟨_, _, metas, happ, rfl⟩, .inr rfl⟩
    show 0 + _ ≤ _
    omega

/-- Every row a sync answers fits the arena it leaves, and the rows come in ascending order of their
pools, so no two are of the same. -/
theorem fits_syncTradable :
    SlotsOk heap next ∧ (∀ row ∈ report.metas, MetaFits next row) ∧
      ∃ last, Ascending 0 last report.metas := by
  rcases exists_syncLoops fx arena h hok htables hrows hnodup hroom with
    ⟨start, ordered, rows, novelOnly, mid, hloops⟩
  rcases hloops.loops with ⟨_, _, metas, happ, hmetas⟩
  have hroom' := hloops.room
  have hfull := hloops.kept
  rcases fits_syncTradableInplaceFrom fx pools hints ordered 0 start hloops.ok hloops.arcs
    (by omega) (by omega) with ⟨hok', hkept, -, hasc, hlen⟩
  rcases fits_appendTradable fx pools hints novelOnly _ _ _ happ hok' hloops.rowsOk
    (by rw [syncTradableInplace]; omega) hloops.unregistered with ⟨hok'', hold, hnew, hle, hasc'⟩
  rw [syncTradableInplace, hlen] at hle hasc'
  have hall : ∀ row ∈ report.metas, MetaFits mid row := by
    intro row hr
    rw [hmetas] at hr
    rcases List.mem_append.mp hr with hr | hr
    · exact hold row (hkept row hr)
    · exact hnew row hr
  have hrising : ∃ last, Ascending 0 last report.metas := by
    rw [hmetas]
    exact ⟨_, (hasc.mono le_rfl (by omega)).append hasc' (Nat.zero_le _) hle⟩
  rcases hloops.next with rfl | rfl
  · exact ⟨hok'', hall, hrising⟩
  · exact ⟨slotsOk_recompute fx _ hok'', fun row hr => fits_recompute fx _ (hall row hr), hrising⟩

end Sync

end StateArena

end PolygonArb

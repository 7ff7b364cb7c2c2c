import PolygonArb.Pipeline.ArenaInvariant

/-!
# Indices across a sync

Graphs, cycles and caches hold `PoolIndex` and `TokenIndex` values across syncs.  `IndicesKept` says
when they may: both tables only grew at the end, and both maps still answer what they did.  Each
registration is such a step, so is every path of the sync but the wipe, and the wipe reports itself.
-/

namespace PolygonArb

open Word IndexTable

/-- Every index of `a` denotes in `b` the address it denoted in `a`. -/
structure IndicesKept (a b : ArenaInner) : Prop where
  pools : Extends a.poolAddresses a.addressToPool b.poolAddresses b.addressToPool
  tokens : Extends a.tokens a.addressToToken b.tokens b.addressToToken

namespace IndicesKept

variable {a b c : ArenaInner}

lemma refl (a : ArenaInner) : IndicesKept a a := ⟨.refl _ _, .refl _ _⟩

lemma trans (h : IndicesKept a b) (h' : IndicesKept b c) : IndicesKept a c :=
  ⟨h.pools.trans h'.pools, h.tokens.trans h'.tokens⟩

lemma refresh (fx : FxHasher) (h : IndicesKept a b) : IndicesKept a (b.refreshFingerprint fx) :=
  ⟨h.pools, h.tokens⟩

lemma of_pools (a : ArenaInner) (ps : List PoolArc) : IndicesKept a { a with pools := ps } :=
  ⟨.refl _ _, .refl _ _⟩

end IndicesKept

namespace StateArena

variable (fx : FxHasher) (arena : StateArena)

/-! ## Registration -/

lemma indicesKept_registerToken (address : Address) (hints : DecimalHints) (touch : Bool) :
    IndicesKept arena.inner (arena.registerTokenWithHintsInner fx address hints touch).2.inner := by
  rw [registerTokenWithHintsInner]
  split
  · split
    · exact ⟨.refl _ _, .refl _ _⟩
    · exact .refl _
  · rename_i hnew
    cases touch with
    | false => exact ⟨.refl _ _, .push hnew _⟩
    | true => exact ⟨.refl _ _, .push hnew _⟩

lemma indicesKept_registerPool (address : Address) (state : PoolArc) (touch : Bool) :
    IndicesKept arena.inner (arena.registerPoolInner fx address state touch).2.inner := by
  rw [registerPoolInner]
  split
  · dsimp only [inner_clearHotSlot]
    split
    · exact .refl _
    · split
      · exact (IndicesKept.of_pools _ _).refresh fx
      · exact .of_pools _ _
  · rename_i hnew
    cases touch with
    | false => exact ⟨.push hnew _, .refl _ _⟩
    | true => exact ⟨.push hnew _, .refl _ _⟩

lemma indicesKept_tokenIndicesFor (hints : DecimalHints) (touch : Bool) (addrs : List Address) :
    ∀ arena : StateArena,
      IndicesKept arena.inner (tokenIndicesFor fx hints touch addrs arena).2.inner := by
  induction addrs with
  | nil => intro arena; exact .refl _
  | cons addr rest ih =>
      intro arena
      exact (indicesKept_registerToken fx arena addr hints touch).trans (ih _)

lemma indicesKept_appendSyncedPool (pool : DiscoveredPool) (state : PoolArc) (hints : DecimalHints)
    (touch : Bool) :
    IndicesKept arena.inner (arena.appendSyncedPool fx pool state hints touch).2.inner :=
  (indicesKept_registerPool fx arena pool.address state touch).trans
    (indicesKept_tokenIndicesFor fx hints touch _ _)

lemma indicesKept_refreshSlot (pool : DiscoveredPool) (hints : DecimalHints) (i : ℕ)
    (state : PoolArc) :
    IndicesKept arena.inner (arena.refreshSlot fx pool hints i state).2.inner := by
  rcases refreshSlot_inner fx arena pool hints i state with ⟨mid, hmid, heq⟩
  have hset := IndicesKept.of_pools arena.inner (arena.refreshedPools i state)
  rw [← hmid] at hset
  rw [heq]
  exact hset.trans (indicesKept_tokenIndicesFor fx hints false _ mid)

/-! ## The loops of the sync -/

lemma indicesKept_syncTradableInplaceFrom (pools : List DiscoveredPool) (hints : DecimalHints)
    (rows : List TradableRow) :
    ∀ (i : ℕ) (arena : StateArena),
      IndicesKept arena.inner (syncTradableInplaceFrom fx pools hints i rows arena).2.inner := by
  induction rows with
  | nil => intro i arena; exact .refl _
  | cons row rest ih =>
      intro i arena
      rw [syncTradableInplaceFrom]
      cases pools[row.index]? with
      | none => exact ih (i + 1) arena
      | some pool => exact (indicesKept_refreshSlot fx arena pool hints i row.state).trans (ih _ _)

lemma indicesKept_appendTradable (pools : List DiscoveredPool) (hints : DecimalHints)
    (novelOnly : Bool) (rows : List TradableRow) :
    ∀ (room : ℕ) (arena : StateArena) {added : ℕ} {metas : List PoolMeta} {next : StateArena},
      appendTradable fx pools hints novelOnly room rows arena = some (added, metas, next) →
      IndicesKept arena.inner next.inner := by
  induction rows with
  | nil =>
      intro room arena added metas next h
      rw [appendTradable] at h
      simp only [Option.some.injEq, Prod.mk.injEq] at h
      rcases h with ⟨-, -, rfl⟩
      exact .refl _
  | cons row rest ih =>
      intro room arena added metas next h
      rcases appendTradable_step h with ⟨-, -, -, rfl⟩ | ⟨hrest, -⟩ | ⟨pool, _, _, _, -, -, hrest, -, -⟩
      · exact .refl _
      · exact ih _ _ hrest
      · exact (indicesKept_appendSyncedPool fx arena pool row.state hints false).trans (ih _ _ hrest)

/-- The sync keeps the indices on every path but the wipe, and the wipe reports itself. -/
lemma indicesKept_syncTradable {tradable : List TradableRow} {pools : List DiscoveredPool}
    {addressIndex : Address → Option ℕ} {hints : DecimalHints} {freezeAppend : Bool}
    {report : ArenaSyncReport} {next : StateArena}
    (h : arena.syncTradable fx tradable pools addressIndex hints freezeAppend =
      some (report, next))
    (hkeep : report.indicesRebuilt = false) : IndicesKept arena.inner next.inner := by
  have hinplace := fun rows => indicesKept_syncTradableInplaceFrom fx pools hints rows 0 arena
  rcases syncTradable_cases fx arena h with ⟨-, -, rfl⟩ | ⟨n, -, -, -, rfl⟩ |
    ⟨n, _, _, mid, -, happ, -, rfl⟩ | ⟨ordered, _, _, _, mid, -, -, -, happ, -, rfl⟩ |
    ⟨_, _, _, -, rfl, -⟩
  · exact hinplace tradable
  · exact hinplace (tradable.take n)
  · exact ((hinplace _).trans (indicesKept_appendTradable fx _ _ _ _ _ _ happ)).refresh fx
  · have hmid := (hinplace ordered).trans (indicesKept_appendTradable fx _ _ _ _ _ _ happ)
    split
    · exact hmid.refresh fx
    · exact hmid
  · exact absurd hkeep (by simp)

end StateArena

/-- A sync that does not report a rebuild keeps every index: the maps answer for a known address what
they answered, and an index in range denotes the address it denoted. -/
theorem sync_indices_stable (fx : FxHasher) (arena : StateArena) (cache : StateCache)
    (pools : List DiscoveredPool) (addressIndex : Address → Option ℕ) (hints : DecimalHints)
    (freezeAppend : Bool) (report : ArenaSyncReport) (next : StateArena)
    (h : arena.syncFromDiscoveryGated fx cache pools addressIndex hints freezeAppend =
      some (report, next))
    (hkeep : report.indicesRebuilt = false) :
    (∀ address index, arena.inner.addressToPool address = some index →
        next.inner.addressToPool address = some index) ∧
      (∀ address index, arena.inner.addressToToken address = some index →
        next.inner.addressToToken address = some index) ∧
      (∀ (index : PoolIndex) address, arena.inner.poolAddresses[index]? = some address →
        next.inner.poolAddresses[index]? = some address) ∧
      ∀ index address, arena.tokenAddress index = some address →
        next.tokenAddress index = some address := by
  have hkept := StateArena.indicesKept_syncTradable fx arena h hkeep
  exact ⟨hkept.pools.lookup, hkept.tokens.lookup, fun _ _ => hkept.pools.getElem?_eq,
    fun _ _ => hkept.tokens.getElem?_eq⟩

/-- A pool is synced, then refreshed with a state of another allocation. -/
theorem sync_indices_stable_refresh :
    ∃ first report next,
      (syncOne ⟨some 5, fundedV2⟩ .uniswapV2).apply mixHash (.default mixHash) = some first ∧
        first.syncFromDiscoveryGated mixHash ⟨[⟨1#160, ⟨some 7, fundedV2⟩, 2, true⟩], 2⟩
          [discoveredPair .uniswapV2] (fun a => if a = 1#160 then some 0 else none) none false =
            some (report, next) ∧
        next.inner.addressToPool 1#160 = some 0 ∧ next.tokenAddress 1 = some 3#160 := by
  have hfirst : ((syncOne ⟨some 5, fundedV2⟩ .uniswapV2).apply mixHash (.default mixHash)).any
      (fun first => first.inner.addressToPool 1#160 = some 0 ∧ first.tokenAddress 1 = some 3#160 ∧
        (first.syncFromDiscoveryGated mixHash ⟨[⟨1#160, ⟨some 7, fundedV2⟩, 2, true⟩], 2⟩
          [discoveredPair .uniswapV2] (fun a => if a = 1#160 then some 0 else none) none false).any
          (fun synced => synced.1.indicesRebuilt = false)) = true := by
    decide +kernel
  rcases (Option.any_eq_true _ _).1 hfirst with ⟨first, happly, hprop⟩
  rcases of_decide_eq_true hprop with ⟨hpool, htoken, hsecond⟩
  rcases (Option.any_eq_true _ _).1 hsecond with ⟨⟨report, next⟩, hsync, hkeep⟩
  have hstable := sync_indices_stable mixHash first _ _ _ _ _ report next hsync
    (of_decide_eq_true hkeep)
  exact ⟨first, report, next, happly, hsync, hstable.1 _ _ hpool, hstable.2.2.2 _ _ htoken⟩

end PolygonArb

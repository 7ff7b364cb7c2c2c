import PolygonArb.Pipeline.Arena

/-!
# The arena keeps its indices

**Tables.**  `TablesOk` says that the token and pool tables and their maps are inverse to each other.
Every operation is a `Registers n m` step: it adds at most `n` tokens and `m` pools and keeps the
tables when the 32-bit indices have room for them.  Steps compose, so whole syncs are steps.

**Fingerprint.**  `LayoutKept` says that an operation left everything the fingerprint reads, and the
stored fingerprint itself.  The in-place refresh never recomputes it, so it must keep the layout;
`InplaceQuiet` is the condition on the rows under which it does.
-/

namespace PolygonArb

open Word IndexTable

/-- The tables and their maps are inverse bijections, and the parallel columns are parallel. -/
structure ArenaInner.TablesOk (inner : ArenaInner) : Prop where
  decimals : inner.tokenDecimals.length = inner.tokens.length
  pools : inner.pools.length = inner.poolAddresses.length
  token : InverseIndex inner.tokens inner.addressToToken
  pool : InverseIndex inner.poolAddresses inner.addressToPool

/-- The stored fingerprint is the one of the current contents. -/
def ArenaInner.FingerprintOk (fx : FxHasher) (inner : ArenaInner) : Prop :=
  inner.layoutFingerprint = computeLayoutFingerprint fx inner

lemma ArenaInner.tablesOk_empty : ArenaInner.empty.TablesOk :=
  ⟨rfl, rfl, inverseIndex_nil, inverseIndex_nil⟩

lemma ArenaInner.fingerprintOk_refresh (fx : FxHasher) (inner : ArenaInner) :
    (inner.refreshFingerprint fx).FingerprintOk fx := rfl

lemma ArenaInner.TablesOk.refresh {inner : ArenaInner} (fx : FxHasher) (h : inner.TablesOk) :
    (inner.refreshFingerprint fx).TablesOk := ⟨h.decimals, h.pools, h.token, h.pool⟩

/-- There are 32-bit indices for `n` more entries, if any are to be added. -/
def Fits (size n : ℕ) : Prop := n = 0 ∨ size + n ≤ 2 ^ 32

/-- `b` is `a` after registering at most `n` tokens and `m` pools. -/
structure Registers (n m : ℕ) (a b : ArenaInner) : Prop where
  tables : a.TablesOk → Fits a.tokens.length n → Fits a.pools.length m → b.TablesOk
  tokens_le : b.tokens.length ≤ a.tokens.length + n
  pools_le : b.pools.length ≤ a.pools.length + m

namespace Registers

variable {a b c : ArenaInner} {n n' m m' : ℕ}

lemma refl (a : ArenaInner) : Registers 0 0 a a := ⟨fun h _ _ => h, le_rfl, le_rfl⟩

lemma trans (h : Registers n m a b) (h' : Registers n' m' b c) :
    Registers (n + n') (m + m') a c := by
  have ht := h.tokens_le
  have ht' := h'.tokens_le
  have hp := h.pools_le
  have hp' := h'.pools_le
  refine ⟨fun ha hn hm => ?_, by omega, by omega⟩
  rw [Fits] at hn hm
  refine h'.tables (h.tables ha ?_ ?_) ?_ ?_ <;> rw [Fits] <;> omega

lemma mono (h : Registers n m a b) (hn : n ≤ n') (hm : m ≤ m') : Registers n' m' a b := by
  refine ⟨fun ha h1 h2 => ?_, h.tokens_le.trans (by omega), h.pools_le.trans (by omega)⟩
  rw [Fits] at h1 h2
  refine h.tables ha ?_ ?_ <;> rw [Fits] <;> omega

lemma refresh (fx : FxHasher) (h : Registers n m a b) : Registers n m a (b.refreshFingerprint fx) :=
  ⟨fun ha h1 h2 => (h.tables ha h1 h2).refresh fx, h.tokens_le, h.pools_le⟩

/-- Rewriting pool slots is a step that registers nothing. -/
lemma of_pools {ps : List PoolArc} (h : ps.length = a.pools.length) :
    Registers 0 0 a { a with pools := ps } :=
  ⟨fun ha _ _ => ⟨ha.decimals, h.trans ha.pools, ha.token, ha.pool⟩, le_rfl, h.le⟩

end Registers

/-- `b` has the layout of `a`, and the fingerprint `a` had. -/
structure LayoutKept (a b : ArenaInner) : Prop where
  tokens : b.tokens = a.tokens
  addressToToken : b.addressToToken = a.addressToToken
  poolAddresses : b.poolAddresses = a.poolAddresses
  tags : b.pools.map (·.state.familyTag) = a.pools.map (·.state.familyTag)
  fingerprint : b.layoutFingerprint = a.layoutFingerprint

namespace LayoutKept

variable {a b c : ArenaInner}

lemma refl (a : ArenaInner) : LayoutKept a a := ⟨rfl, rfl, rfl, rfl, rfl⟩

lemma trans (h : LayoutKept a b) (h' : LayoutKept b c) : LayoutKept a c :=
  ⟨h'.tokens.trans h.tokens, h'.addressToToken.trans h.addressToToken,
    h'.poolAddresses.trans h.poolAddresses, h'.tags.trans h.tags,
    h'.fingerprint.trans h.fingerprint⟩

/-- The writes read a pool through its family tag only. -/
lemma flatMap_tags (addrs : List Address) (pools : List PoolArc) :
    ((addrs.zip pools).flatMap fun (addr, pool) =>
      [HashWrite.bytes addr, HashWrite.u8 pool.state.familyTag]) =
    (addrs.zip (pools.map (·.state.familyTag))).flatMap fun (addr, tag) =>
      [HashWrite.bytes addr, HashWrite.u8 tag] := by
  rw [List.zip_map_right, List.flatMap_map]
  rfl

lemma layoutWrites_eq (h : LayoutKept a b) : layoutWrites b = layoutWrites a := by
  have hlen : b.pools.length = a.pools.length := by
    simpa using congrArg List.length h.tags
  rw [layoutWrites, layoutWrites, flatMap_tags, flatMap_tags, h.tokens, h.poolAddresses, h.tags,
    hlen]

lemma fingerprintOk {fx : FxHasher} (h : LayoutKept a b) (ha : a.FingerprintOk fx) :
    b.FingerprintOk fx := by
  rw [ArenaInner.FingerprintOk, computeLayoutFingerprint, h.layoutWrites_eq, h.fingerprint]
  exact ha

end LayoutKept

namespace StateArena

variable (fx : FxHasher) (arena : StateArena)

/-! ## Tokens and pools -/

@[simp] lemma inner_clearHotSlot (index : PoolIndex) : (arena.clearHotSlot index).inner = arena.inner :=
  rfl

lemma registers_registerToken (address : Address) (hints : DecimalHints) (touch : Bool) :
    Registers 1 0 arena.inner
      (arena.registerTokenWithHintsInner fx address hints touch).2.inner := by
  rw [registerTokenWithHintsInner]
  split
  · rename_i idx _
    split
    · refine ⟨fun h _ _ => ⟨?_, h.pools, h.token, h.pool⟩, by simp, by simp⟩
      simpa using h.decimals
    · exact (Registers.refl _).mono (by omega) le_rfl
  · rename_i hnew
    have hstep : Registers 1 0 arena.inner { arena.inner with
        tokens := arena.inner.tokens ++ [address]
        tokenDecimals := arena.inner.tokenDecimals ++ [(hints.bind (· address)).getD 18]
        addressToToken := Function.update arena.inner.addressToToken address
          (some (arena.inner.tokens.length % 2 ^ 32)) } := by
      refine ⟨fun h hn _ => ⟨by simpa using h.decimals, h.pools, ?_, h.pool⟩, by simp, by simp⟩
      rw [Fits] at hn
      rw [Nat.mod_eq_of_lt (by omega)]
      exact h.token.push hnew
    cases touch with
    | false => exact hstep
    | true => exact hstep.refresh fx

/-- Registering a known token without touching the layout keeps it. -/
lemma layoutKept_registerToken {address : Address} (hints : DecimalHints)
    (h : (arena.inner.addressToToken address).isSome) :
    LayoutKept arena.inner
      (arena.registerTokenWithHintsInner fx address hints false).2.inner := by
  rw [registerTokenWithHintsInner]
  rcases Option.isSome_iff_exists.1 h with ⟨idx, hidx⟩
  rw [hidx]
  dsimp only
  split
  · exact ⟨rfl, rfl, rfl, rfl, rfl⟩
  · exact LayoutKept.refl _

lemma pools_registerToken (address : Address) (hints : DecimalHints) (touch : Bool) :
    (arena.registerTokenWithHintsInner fx address hints touch).2.inner.pools = arena.inner.pools ∧
      (arena.registerTokenWithHintsInner fx address hints touch).2.inner.addressToPool =
        arena.inner.addressToPool := by
  rw [registerTokenWithHintsInner]
  split
  · split <;> exact ⟨rfl, rfl⟩
  · cases touch <;> exact ⟨rfl, rfl⟩

lemma registers_registerPool (address : Address) (state : PoolArc) (touch : Bool) :
    Registers 0 1 arena.inner (arena.registerPoolInner fx address state touch).2.inner := by
  rw [registerPoolInner]
  split
  · rename_i idx _
    have hset : Registers 0 1 arena.inner
        { arena.inner with pools := arena.inner.pools.set idx state } :=
      (Registers.of_pools (by simp)).mono le_rfl (by omega)
    dsimp only [inner_clearHotSlot]
    split
    · exact (Registers.refl _).mono le_rfl (by omega)
    · split
      · exact hset.refresh fx
      · exact hset
  · rename_i hnew
    have hstep : Registers 0 1 arena.inner { arena.inner with
        pools := arena.inner.pools ++ [state]
        poolAddresses := arena.inner.poolAddresses ++ [address]
        addressToPool := Function.update arena.inner.addressToPool address
          (some (arena.inner.pools.length % 2 ^ 32)) } := by
      refine ⟨fun h _ hm => ⟨h.decimals, by simpa using h.pools, h.token, ?_⟩, by simp, by simp⟩
      rw [Fits] at hm
      rw [Nat.mod_eq_of_lt (by omega), h.pools]
      exact h.pool.push hnew
    cases touch with
    | false => exact hstep
    | true => exact hstep.refresh fx

/-- Registration recomputes the fingerprint whenever it changes what the fingerprint reads. -/
lemma fingerprintOk_registerToken (address : Address) (hints : DecimalHints)
    (h : arena.inner.FingerprintOk fx) :
    (arena.registerTokenWithHintsInner fx address hints true).2.inner.FingerprintOk fx := by
  rw [registerTokenWithHintsInner]
  split
  · split
    · exact LayoutKept.fingerprintOk ⟨rfl, rfl, rfl, rfl, rfl⟩ h
    · exact h
  · exact ArenaInner.fingerprintOk_refresh fx _

lemma fingerprintOk_registerPool (address : Address) (state : PoolArc)
    (h : arena.inner.FingerprintOk fx) :
    (arena.registerPoolInner fx address state true).2.inner.FingerprintOk fx := by
  rw [registerPoolInner]
  split
  · dsimp only [inner_clearHotSlot]
    split
    · exact h
    · rw [Bool.or_true, if_pos rfl]
      exact ArenaInner.fingerprintOk_refresh fx _
  · exact ArenaInner.fingerprintOk_refresh fx _

/-! ## The hot overlay leaves the tables alone -/

lemma inner_ensureHotStorage : arena.ensureHotStorage.inner = arena.inner := by
  rw [ensureHotStorage]
  split <;> rfl

lemma inner_applyHotState (fresh : Address → Option (PoolArc × ℕ)) (address : Address) :
    (arena.applyHotState fresh address).inner = arena.inner := by
  rw [applyHotState]
  split
  · rfl
  · split
    · rfl
    · dsimp only
      split <;> rfl

lemma inner_applyHotStates (fresh : Address → Option (PoolArc × ℕ)) (addresses : List Address) :
    ∀ arena : StateArena,
      (addresses.foldl (fun a address => a.applyHotState fresh address) arena).inner =
        arena.inner := by
  induction addresses with
  | nil => intro arena; rfl
  | cons address rest ih =>
      intro arena
      rw [List.foldl_cons, ih, inner_applyHotState]

lemma inner_applyHotCacheUnique (cache : StateCache) (addresses : List Address) :
    (arena.applyHotCacheUnique cache addresses).2.inner = arena.inner := by
  rw [applyHotCacheUnique]
  split
  · rfl
  · dsimp only
    rw [inner_applyHotStates, inner_ensureHotStorage]

/-! ## Syncing one pool -/

lemma registers_tokenIndicesFor (hints : DecimalHints) (touch : Bool) (addrs : List Address) :
    ∀ arena : StateArena,
      Registers addrs.length 0 arena.inner
        (tokenIndicesFor fx hints touch addrs arena).2.inner := by
  induction addrs with
  | nil => intro arena; exact Registers.refl _
  | cons addr rest ih =>
      intro arena
      have hhead := registers_registerToken fx arena addr hints touch
      have hrest := ih (arena.registerTokenWithHintsInner fx addr hints touch).2
      exact (hhead.trans hrest).mono (by rw [List.length_cons]; omega) le_rfl

lemma pools_tokenIndicesFor (hints : DecimalHints) (touch : Bool) (addrs : List Address) :
    ∀ arena : StateArena,
      (tokenIndicesFor fx hints touch addrs arena).2.inner.pools = arena.inner.pools ∧
        (tokenIndicesFor fx hints touch addrs arena).2.inner.addressToPool =
          arena.inner.addressToPool := by
  induction addrs with
  | nil => intro arena; exact ⟨rfl, rfl⟩
  | cons addr rest ih =>
      intro arena
      have hhead := pools_registerToken fx arena addr hints touch
      have hrest := ih (arena.registerTokenWithHintsInner fx addr hints touch).2
      exact ⟨hrest.1.trans hhead.1, hrest.2.trans hhead.2⟩

lemma layoutKept_tokenIndicesFor (hints : DecimalHints) (addrs : List Address) :
    ∀ arena : StateArena, (∀ a ∈ addrs, (arena.inner.addressToToken a).isSome) →
      LayoutKept arena.inner (tokenIndicesFor fx hints false addrs arena).2.inner := by
  induction addrs with
  | nil => intro arena _; exact LayoutKept.refl _
  | cons addr rest ih =>
      intro arena h
      have hhead := layoutKept_registerToken fx arena hints (h addr List.mem_cons_self)
      refine hhead.trans (ih _ fun a ha => ?_)
      rw [hhead.addressToToken]
      exact h a (List.mem_cons_of_mem addr ha)

lemma registers_appendSyncedPool (pool : DiscoveredPool) (state : PoolArc) (hints : DecimalHints)
    (touch : Bool) :
    Registers (poolTokenAddrs state.state pool).length 1 arena.inner
      (arena.appendSyncedPool fx pool state hints touch).2.inner := by
  have hpool := registers_registerPool fx arena pool.address state touch
  have htok := registers_tokenIndicesFor fx hints touch (poolTokenAddrs state.state pool)
    (arena.registerPoolInner fx pool.address state touch).2
  exact (hpool.trans htok).mono (by omega) (by omega)

lemma familyTag_preserve (prior : Option PoolState) (incoming : PoolArc) :
    (preserveClTicksOnReplace prior incoming).state.familyTag = incoming.state.familyTag := by
  unfold preserveClTicksOnReplace
  split
  · rename_i h
    split
    · rw [h]; rfl
    · rfl
  · rename_i h
    split
    · rw [h]; rfl
    · rfl
  · rfl

/-- The slot write of the in-place refresh. -/
def refreshedPools (arena : StateArena) (i : ℕ) (state : PoolArc) : List PoolArc :=
  if arena.inner.pools[i]?.any (·.ptrEq state) then arena.inner.pools
  else arena.inner.pools.set i
    (preserveClTicksOnReplace (arena.inner.pools[i]?.map PoolArc.state) state)

lemma refreshSlot_inner (pool : DiscoveredPool) (hints : DecimalHints) (i : ℕ) (state : PoolArc) :
    ∃ mid : StateArena,
      mid.inner = { arena.inner with pools := arena.refreshedPools i state } ∧
        (arena.refreshSlot fx pool hints i state).2 =
          (tokenIndicesFor fx hints false (poolTokenAddrs state.state pool) mid).2 := by
  refine ⟨_, ?_, rfl⟩
  rw [inner_clearHotSlot, refreshedPools]
  split <;> rfl

lemma length_refreshedPools (i : ℕ) (state : PoolArc) :
    (arena.refreshedPools i state).length = arena.inner.pools.length := by
  rw [refreshedPools]
  split
  · rfl
  · exact List.length_set

lemma getElem?_refreshedPools {i j : ℕ} (state : PoolArc) (h : i ≠ j) :
    (arena.refreshedPools i state)[j]? = arena.inner.pools[j]? := by
  rw [refreshedPools]
  split
  · rfl
  · exact List.getElem?_set_ne h

lemma registers_refreshSlot (pool : DiscoveredPool) (hints : DecimalHints) (i : ℕ)
    (state : PoolArc) :
    Registers (poolTokenAddrs state.state pool).length 0 arena.inner
      (arena.refreshSlot fx pool hints i state).2.inner := by
  rcases refreshSlot_inner fx arena pool hints i state with ⟨mid, hmid, heq⟩
  rw [heq]
  have hset := Registers.of_pools (a := arena.inner) (length_refreshedPools arena i state)
  rw [← hmid] at hset
  exact (hset.trans (registers_tokenIndicesFor fx hints false _ mid)).mono (by omega) le_rfl

/-- The refresh of a slot changes neither its family nor the token table. -/
def SlotQuiet (arena : StateArena) (pools : List DiscoveredPool) (i : ℕ) (row : TradableRow) :
    Prop :=
  ∀ pool, pools[row.index]? = some pool →
    (∀ slot, arena.inner.pools[i]? = some slot →
      slot.ptrEq row.state = true ∨ slot.state.familyTag = row.state.state.familyTag) ∧
    ∀ a ∈ poolTokenAddrs row.state.state pool, (arena.inner.addressToToken a).isSome

lemma tags_refreshedPools {i : ℕ} {state : PoolArc}
    (h : ∀ slot, arena.inner.pools[i]? = some slot →
      slot.ptrEq state = true ∨ slot.state.familyTag = state.state.familyTag) :
    (arena.refreshedPools i state).map (·.state.familyTag) =
      arena.inner.pools.map (·.state.familyTag) := by
  rw [refreshedPools]
  split
  · rfl
  · rename_i hne
    rw [List.map_set, familyTag_preserve]
    refine List.ext_getElem? fun j => ?_
    rw [List.getElem?_set]
    split
    · rename_i hij
      subst hij
      split
      · rename_i hi
        rw [List.length_map] at hi
        have hslot := List.getElem?_eq_getElem hi
        rw [hslot] at hne
        rcases h _ hslot with hp | ht
        · exact absurd hp (by simpa using hne)
        · rw [List.getElem?_map, hslot, Option.map_some, ht]
      · rename_i hi
        rw [List.getElem?_eq_none (by omega)]
    · rfl

lemma layoutKept_refreshSlot {pools : List DiscoveredPool} {pool : DiscoveredPool} {i : ℕ}
    {row : TradableRow} (hints : DecimalHints) (hpool : pools[row.index]? = some pool)
    (h : arena.SlotQuiet pools i row) :
    LayoutKept arena.inner (arena.refreshSlot fx pool hints i row.state).2.inner := by
  rcases refreshSlot_inner fx arena pool hints i row.state with ⟨mid, hmid, heq⟩
  rcases h pool hpool with ⟨hslot, htok⟩
  rw [heq]
  have hset : LayoutKept arena.inner mid.inner := by
    rw [hmid]
    exact ⟨rfl, rfl, rfl, tags_refreshedPools arena hslot, rfl⟩
  refine hset.trans (layoutKept_tokenIndicesFor fx hints _ mid fun a ha => ?_)
  rw [hset.addressToToken]
  exact htok a ha

/-! ## The in-place refresh -/

/-- Token addresses the pool of a row names. -/
def rowTokens (pools : List DiscoveredPool) (row : TradableRow) : ℕ :=
  match pools[row.index]? with
  | some pool => (poolTokenAddrs row.state.state pool).length
  | none => 0

/-- Token addresses the pools of all rows name. -/
def tokenDemand (pools : List DiscoveredPool) (rows : List TradableRow) : ℕ :=
  (rows.map (rowTokens pools)).sum

lemma tokenDemand_cons (pools : List DiscoveredPool) (row : TradableRow)
    (rows : List TradableRow) :
    tokenDemand pools (row :: rows) = rowTokens pools row + tokenDemand pools rows := by
  rw [tokenDemand, List.map_cons, List.sum_cons, tokenDemand]

lemma rowTokens_of_some {pools : List DiscoveredPool} {row : TradableRow} {pool : DiscoveredPool}
    (h : pools[row.index]? = some pool) :
    rowTokens pools row = (poolTokenAddrs row.state.state pool).length := by
  rw [rowTokens, h]

/-- Every slot from `i` on is refreshed quietly. -/
def InplaceQuiet (arena : StateArena) (pools : List DiscoveredPool) (i : ℕ)
    (rows : List TradableRow) : Prop :=
  ∀ j row, rows[j]? = some row → arena.SlotQuiet pools (i + j) row

variable {arena} in
lemma InplaceQuiet.head {pools : List DiscoveredPool} {i : ℕ} {row : TradableRow}
    {rows : List TradableRow} (h : arena.InplaceQuiet pools i (row :: rows)) :
    arena.SlotQuiet pools i row := h 0 row rfl

variable {arena} in
/-- Refreshing the first slot leaves the later ones as they were. -/
lemma InplaceQuiet.tail {pools : List DiscoveredPool} {i : ℕ} {row : TradableRow}
    {rows : List TradableRow} {next : StateArena} (h : arena.InplaceQuiet pools i (row :: rows))
    (hpools : ∀ j, i < j → next.inner.pools[j]? = arena.inner.pools[j]?)
    (htok : next.inner.addressToToken = arena.inner.addressToToken) :
    next.InplaceQuiet pools (i + 1) rows := by
  intro j r hr pool hpool
  have hq := h (j + 1) r (by simpa using hr) pool hpool
  rw [htok, hpools _ (by omega), show i + 1 + j = i + (j + 1) by omega]
  exact hq

lemma pools_refreshSlot (pool : DiscoveredPool) (hints : DecimalHints) (i : ℕ) (state : PoolArc) :
    (arena.refreshSlot fx pool hints i state).2.inner.pools = arena.refreshedPools i state ∧
      (arena.refreshSlot fx pool hints i state).2.inner.addressToPool =
        arena.inner.addressToPool := by
  rcases refreshSlot_inner fx arena pool hints i state with ⟨mid, hmid, heq⟩
  have hkeep := pools_tokenIndicesFor fx hints false (poolTokenAddrs state.state pool) mid
  rw [hmid] at hkeep
  rw [heq]
  exact hkeep

/-- The run of the in-place refresh: it registers at most the tokens its rows name, keeps the pool
index, and keeps the layout when every slot is refreshed quietly. -/
theorem syncTradableInplaceFrom_spec (pools : List DiscoveredPool) (hints : DecimalHints)
    (rows : List TradableRow) :
    ∀ (i : ℕ) (arena : StateArena),
      Registers (tokenDemand pools rows) 0 arena.inner
          (syncTradableInplaceFrom fx pools hints i rows arena).2.inner ∧
        (syncTradableInplaceFrom fx pools hints i rows arena).2.inner.addressToPool =
          arena.inner.addressToPool ∧
        (arena.InplaceQuiet pools i rows →
          LayoutKept arena.inner (syncTradableInplaceFrom fx pools hints i rows arena).2.inner) := by
  induction rows with
  | nil => intro i arena; exact ⟨Registers.refl _, rfl, fun _ => LayoutKept.refl _⟩
  | cons row rest ih =>
      intro i arena
      rw [syncTradableInplaceFrom, tokenDemand_cons]
      cases hpool : pools[row.index]? with
      | none =>
          rcases ih (i + 1) arena with ⟨hreg, hidx, hkeep⟩
          exact ⟨hreg.mono (by omega) le_rfl, hidx,
            fun hq => hkeep (hq.tail (fun _ _ => rfl) rfl)⟩
      | some pool =>
          have hslot := registers_refreshSlot fx arena pool hints i row.state
          have hpools := pools_refreshSlot fx arena pool hints i row.state
          rcases ih (i + 1) (arena.refreshSlot fx pool hints i row.state).2 with
            ⟨hreg, hidx, hkeep⟩
          rw [rowTokens_of_some hpool]
          refine ⟨hslot.trans hreg, hidx.trans hpools.2, fun hq => ?_⟩
          have hhead := layoutKept_refreshSlot fx arena hints hpool hq.head
          refine hhead.trans (hkeep (hq.tail (fun j hj => ?_) hhead.addressToToken))
          rw [hpools.1, getElem?_refreshedPools arena _ (by omega)]

/-! ## The append loops -/

/-- A row the novel append would admit: no slot yet, known to discovery, and eligible. -/
def Novel (arena : StateArena) (pools : List DiscoveredPool) (hints : DecimalHints)
    (row : TradableRow) : Prop :=
  arena.inner.addressToPool row.address = none ∧
    ∃ pool, pools[row.index]? = some pool ∧
      syncPoolGraphEligible row.state.state pool hints = some true

section Append

variable {fx arena} {pools : List DiscoveredPool} {hints : DecimalHints} {novelOnly : Bool} {row : TradableRow}
  {rest : List TradableRow} {room added : ℕ} {metas : List PoolMeta} {next : StateArena}

/-- What the loop does with its first row: it stops, passes over it, or admits its pool. -/
lemma appendTradable_step
    (h : appendTradable fx pools hints novelOnly room (row :: rest) arena = some (added, metas, next)) :
    (room = 0 ∧ added = 0 ∧ metas = [] ∧ next = arena) ∨
      (appendTradable fx pools hints novelOnly room rest arena = some (added, metas, next) ∧
        ¬ arena.Novel pools hints row) ∨
      ∃ pool room' added' metas', pools[row.index]? = some pool ∧
        (novelOnly && (arena.inner.addressToPool row.address).isSome) = false ∧
        appendTradable fx pools hints novelOnly room' rest
          (arena.appendSyncedPool fx pool row.state hints false).2 = some (added', metas', next) ∧
        added = added' + 1 ∧ metas = (arena.appendSyncedPool fx pool row.state hints false).1 :: metas' := by
  cases room with
  | zero =>
      rw [appendTradable] at h
      simp only [Option.some.injEq, Prod.mk.injEq] at h
      rcases h with ⟨rfl, rfl, rfl⟩
      exact .inl ⟨rfl, rfl, rfl, rfl⟩
  | succ room =>
      rw [appendTradable] at h
      split at h
      · rename_i hknown
        refine .inr (.inl ⟨h, fun hn => ?_⟩)
        rw [hn.1] at hknown
        simp at hknown
      rename_i hnovel
      cases hpool : pools[row.index]? with
      | none =>
          rw [hpool] at h
          refine .inr (.inl ⟨h, fun hn => ?_⟩)
          rcases hn.2 with ⟨pool, hp, -⟩
          rw [hpool] at hp
          cases hp
      | some pool =>
          rw [hpool] at h
          simp only [Option.bind_eq_bind, Option.bind_eq_some_iff] at h
          rcases h with ⟨eligible, helig, h⟩
          cases eligible with
          | false =>
              rw [if_neg Bool.false_ne_true] at h
              refine .inr (.inl ⟨h, fun hn => ?_⟩)
              rcases hn.2 with ⟨pool', hp, he⟩
              rw [hpool] at hp
              rw [← Option.some.inj hp, helig] at he
              cases he
          | true =>
              rw [if_pos rfl] at h
              simp only [Option.bind_eq_some_iff] at h
              rcases h with ⟨⟨added', metas', next'⟩, hrest, h⟩
              simp only [Option.some.injEq, Prod.mk.injEq] at h
              rcases h with ⟨rfl, rfl, rfl⟩
              exact .inr (.inr ⟨pool, room, added', metas', rfl, by simpa using hnovel, hrest, rfl, rfl⟩)

end Append

/-- The run of an append loop. -/
theorem appendTradable_spec (pools : List DiscoveredPool) (hints : DecimalHints) (novelOnly : Bool)
    (rows : List TradableRow) :
    ∀ (room : ℕ) (arena : StateArena) {added : ℕ} {metas : List PoolMeta} {next : StateArena},
      appendTradable fx pools hints novelOnly room rows arena = some (added, metas, next) →
      Registers (tokenDemand pools rows) rows.length arena.inner next.inner ∧
        (added = 0 → next = arena) ∧
        (0 < room → (∃ row ∈ rows, arena.Novel pools hints row) → 0 < added) := by
  induction rows with
  | nil =>
      intro room arena added metas next h
      rw [appendTradable] at h
      simp only [Option.some.injEq, Prod.mk.injEq] at h
      rcases h with ⟨rfl, -, rfl⟩
      exact ⟨Registers.refl _, fun _ => rfl, by simp⟩
  | cons row rest ih =>
      intro room arena added metas next h
      rcases appendTradable_step h with
        ⟨rfl, rfl, -, rfl⟩ | ⟨hrest, hrow⟩ | ⟨pool, room', added', metas', hpool, -, hrest, rfl, -⟩
      · exact ⟨(Registers.refl _).mono (by omega) (by omega), fun _ => rfl,
          fun hroom => absurd hroom (by omega)⟩
      · rcases ih room arena hrest with ⟨hreg, hzero, hnew⟩
        refine ⟨hreg.mono (by rw [tokenDemand_cons]; omega) (by rw [List.length_cons]; omega),
          hzero, fun hroom hex => hnew hroom ?_⟩
        rcases hex with ⟨r, hr, hn⟩
        rcases List.mem_cons.1 hr with rfl | hr
        · exact absurd hn hrow
        · exact ⟨r, hr, hn⟩
      · have hhead := registers_appendSyncedPool fx arena pool row.state hints false
        rcases ih room' _ hrest with ⟨hreg, -, -⟩
        refine ⟨(hhead.trans hreg).mono ?_ ?_, by omega, by omega⟩
        · rw [tokenDemand_cons, rowTokens_of_some hpool]
        · rw [List.length_cons]; omega

/-! ## What a sync can do -/

/-- The frozen path: the arena is not empty and discovery knows all of its pools. -/
def Frozen (arena : StateArena) (addressIndex : Address → Option ℕ) : Bool :=
  !arena.inner.pools.isEmpty
    && arena.inner.poolAddresses.all fun address => (addressIndex address).isSome

/-- Every outcome of a sync: two in-place refreshes that leave the fingerprint, and three paths that
end in a recomputation, the frozen one only if it admitted something.  Only the last one wipes the
tables, and says so. -/
theorem syncTradable_cases {tradable : List TradableRow} {pools : List DiscoveredPool}
    {addressIndex : Address → Option ℕ} {hints : DecimalHints} {freezeAppend : Bool}
    {report : ArenaSyncReport} {next : StateArena}
    (h : arena.syncTradable fx tradable pools addressIndex hints freezeAppend =
      some (report, next)) :
    (arena.arenaReuseForTradable tradable pools hints = some .exact ∧
        report = ⟨(arena.syncTradableInplace fx tradable pools hints).1, false, []⟩ ∧
        next = (arena.syncTradableInplace fx tradable pools hints).2) ∨
      (∃ n, arena.arenaReuseForTradable tradable pools hints = some (.prefixReuse n) ∧
        freezeAppend = true ∧
        report = ⟨(arena.syncTradableInplace fx (tradable.take n) pools hints).1, false, []⟩ ∧
        next = (arena.syncTradableInplace fx (tradable.take n) pools hints).2) ∨
      (∃ n added metas mid,
        arena.arenaReuseForTradable tradable pools hints = some (.prefixReuse n) ∧
        appendTradable fx pools hints false attachBatchCap (tradable.drop n)
            (arena.syncTradableInplace fx (tradable.take n) pools hints).2 =
          some (added, metas, mid) ∧
        report = ⟨(arena.syncTradableInplace fx (tradable.take n) pools hints).1 ++ metas, false,
          []⟩ ∧
        next = mid.recomputeLayoutFingerprint fx) ∨
      (∃ ordered invalidated added metas mid,
        arena.arenaReuseForTradable tradable pools hints = some .rebuild ∧
        arena.Frozen addressIndex = true ∧
        frozenRows tradable addressIndex 0 arena.inner.poolAddresses arena.inner.pools =
          some (ordered, invalidated) ∧
        appendTradable fx pools hints true attachBatchCap tradable
            (arena.syncTradableInplace fx ordered pools hints).2 = some (added, metas, mid) ∧
        report = ⟨(arena.syncTradableInplace fx ordered pools hints).1 ++ metas, false,
          invalidated⟩ ∧
        next = if 0 < added then mid.recomputeLayoutFingerprint fx else mid) ∨
      (∃ added metas mid,
        appendTradable fx pools hints false arenaRebuildCap tradable ⟨ArenaInner.empty, [], []⟩ =
          some (added, metas, mid) ∧
        report = ⟨metas, true, []⟩ ∧
        next = mid.recomputeLayoutFingerprint fx) := by
  rw [syncTradable] at h
  simp only [Option.bind_eq_bind, Option.bind_eq_some_iff] at h
  rcases h with ⟨reuse, hreuse, h⟩
  cases reuse with
  | exact =>
      simp only [Option.some.injEq, Prod.mk.injEq] at h
      exact .inl ⟨hreuse, h.1.symm, h.2.symm⟩
  | prefixReuse n =>
      dsimp only at h
      split at h
      · rename_i hf
        simp only [Option.some.injEq, Prod.mk.injEq] at h
        exact .inr (.inl ⟨n, hreuse, hf, h.1.symm, h.2.symm⟩)
      · simp only [syncTradableAppend, Option.bind_eq_bind, Option.bind_eq_some_iff,
          Option.some.injEq, Prod.mk.injEq] at h
        rcases h with ⟨_, ⟨⟨added, metas, mid⟩, happ, rfl⟩, rfl, rfl⟩
        exact .inr (.inr (.inl ⟨n, added, metas, mid, hreuse, happ, rfl, rfl⟩))
  | rebuild =>
      dsimp only at h
      split at h
      · rename_i hf
        simp only [syncFrozenMembership, appendNovelTradable, Option.bind_eq_bind,
          Option.bind_eq_some_iff, Option.some.injEq, Prod.mk.injEq] at h
        rcases h with ⟨_, ⟨⟨ordered, invalidated⟩, hrows, rfl⟩, _, ⟨⟨added, metas, mid⟩, happ, rfl⟩,
          rfl, rfl⟩
        exact .inr (.inr (.inr (.inl
          ⟨ordered, invalidated, added, metas, mid, hreuse, hf, hrows, happ, rfl, rfl⟩)))
      · simp only [StateArena.rebuild, Option.bind_eq_bind, Option.bind_eq_some_iff,
          Option.some.injEq, Prod.mk.injEq] at h
        rcases h with ⟨_, ⟨⟨added, metas, mid⟩, happ, rfl⟩, rfl, rfl⟩
        exact .inr (.inr (.inr (.inr ⟨added, metas, mid, happ, rfl, rfl⟩)))

/-- Tokens the rows of the frozen membership name. -/
def frozenDemand (arena : StateArena) (tradable : List TradableRow) (pools : List DiscoveredPool)
    (addressIndex : Address → Option ℕ) : ℕ :=
  match frozenRows tradable addressIndex 0 arena.inner.poolAddresses arena.inner.pools with
  | some (ordered, _) => tokenDemand pools ordered
  | none => 0

lemma tokenDemand_take_add_drop (pools : List DiscoveredPool) (rows : List TradableRow) (n : ℕ) :
    tokenDemand pools (rows.take n) + tokenDemand pools (rows.drop n) = tokenDemand pools rows := by
  rw [tokenDemand, tokenDemand, ← List.sum_append, ← List.map_append, List.take_append_drop,
    tokenDemand]

/-- There is an index for every token and pool the sync may register. -/
def SyncRoom (arena : StateArena) (tradable : List TradableRow) (pools : List DiscoveredPool)
    (addressIndex : Address → Option ℕ) : Prop :=
  arena.inner.tokens.length + tokenDemand pools tradable
      + arena.frozenDemand tradable pools addressIndex ≤ 2 ^ 32 ∧
    arena.inner.pools.length + tradable.length ≤ 2 ^ 32

/-- A sync that does not end in a recomputation refreshes its slots quietly. -/
def SyncQuiet (arena : StateArena) (tradable : List TradableRow) (pools : List DiscoveredPool)
    (addressIndex : Address → Option ℕ) (hints : DecimalHints) (freezeAppend : Bool) : Prop :=
  match arena.arenaReuseForTradable tradable pools hints with
  | none => True
  | some .exact => arena.InplaceQuiet pools 0 tradable
  | some (.prefixReuse n) => freezeAppend = true → arena.InplaceQuiet pools 0 (tradable.take n)
  | some .rebuild =>
      arena.Frozen addressIndex = true → (∀ row ∈ tradable, ¬ arena.Novel pools hints row) →
        ∀ ordered invalidated,
          frozenRows tradable addressIndex 0 arena.inner.poolAddresses arena.inner.pools =
            some (ordered, invalidated) →
          arena.InplaceQuiet pools 0 ordered

theorem tablesOk_syncTradable {tradable : List TradableRow} {pools : List DiscoveredPool}
    {addressIndex : Address → Option ℕ} {hints : DecimalHints} {freezeAppend : Bool}
    {report : ArenaSyncReport} {next : StateArena}
    (h : arena.syncTradable fx tradable pools addressIndex hints freezeAppend =
      some (report, next))
    (hroom : arena.SyncRoom tradable pools addressIndex) (ht : arena.inner.TablesOk) :
    next.inner.TablesOk := by
  have hinplace := fun rows =>
    (syncTradableInplaceFrom_spec fx pools hints rows 0 arena).1
  rcases hroom with ⟨htok, hpool⟩
  rcases syncTradable_cases fx arena h with ⟨-, -, rfl⟩ | ⟨n, -, -, -, rfl⟩ |
    ⟨n, _, _, mid, -, happ, -, rfl⟩ | ⟨ordered, invalidated, added, _, mid, -, -, hrows, happ, -, rfl⟩ |
    ⟨_, _, mid, happ, -, rfl⟩
  · exact (hinplace tradable).tables ht (.inr (by omega)) (.inl rfl)
  · have hsplit := tokenDemand_take_add_drop pools tradable n
    exact (hinplace (tradable.take n)).tables ht (.inr (by omega)) (.inl rfl)
  · have hsplit := tokenDemand_take_add_drop pools tradable n
    have hstep := (hinplace (tradable.take n)).trans (appendTradable_spec fx _ _ _ _ _ _ happ).1
    refine (hstep.tables ht (.inr (by omega)) (.inr ?_)).refresh fx
    rw [List.length_drop]
    omega
  · have hdemand : arena.frozenDemand tradable pools addressIndex = tokenDemand pools ordered := by
      rw [frozenDemand, hrows]
    have hstep := (hinplace ordered).trans (appendTradable_spec fx _ _ _ _ _ _ happ).1
    have hmid := hstep.tables ht (.inr (by omega)) (.inr (by omega))
    split
    · exact hmid.refresh fx
    · exact hmid
  · have hstep := (appendTradable_spec fx _ _ _ _ _ _ happ).1
    refine (hstep.tables ArenaInner.tablesOk_empty (.inr ?_) (.inr ?_)).refresh fx
    · show 0 + _ ≤ _
      omega
    · show 0 + _ ≤ _
      omega

theorem fingerprintOk_syncTradable {tradable : List TradableRow} {pools : List DiscoveredPool}
    {addressIndex : Address → Option ℕ} {hints : DecimalHints} {freezeAppend : Bool}
    {report : ArenaSyncReport} {next : StateArena}
    (h : arena.syncTradable fx tradable pools addressIndex hints freezeAppend =
      some (report, next))
    (hq : arena.SyncQuiet tradable pools addressIndex hints freezeAppend)
    (hf : arena.inner.FingerprintOk fx) : next.inner.FingerprintOk fx := by
  have hinplace := fun rows =>
    (syncTradableInplaceFrom_spec fx pools hints rows 0 arena).2
  rw [SyncQuiet] at hq
  rcases syncTradable_cases fx arena h with ⟨hr, -, rfl⟩ | ⟨n, hr, hfr, -, rfl⟩ |
    ⟨n, _, _, mid, -, -, -, rfl⟩ | ⟨ordered, invalidated, added, _, mid, hr, hfrozen, hrows, happ, -, rfl⟩ |
    ⟨_, _, mid, -, -, rfl⟩
  · rw [hr] at hq
    exact ((hinplace tradable).2 hq).fingerprintOk hf
  · rw [hr] at hq
    exact ((hinplace (tradable.take n)).2 (hq hfr)).fingerprintOk hf
  · exact ArenaInner.fingerprintOk_refresh fx _
  · rw [hr] at hq
    rcases appendTradable_spec fx _ _ _ _ _ _ happ with ⟨-, hzero, hnew⟩
    split
    · exact ArenaInner.fingerprintOk_refresh fx _
    · rename_i hadded
      -- Nothing was admitted, so no row was novel and the refresh had to be quiet.
      rw [hzero (by omega)]
      refine ((hinplace ordered).2 (hq hfrozen ?_ ordered invalidated hrows)).fingerprintOk hf
      intro row hrow hn
      refine hadded (hnew (by decide) ⟨row, hrow, ?_, hn.2⟩)
      rw [syncTradableInplace, (hinplace ordered).1]
      exact hn.1
  · exact ArenaInner.fingerprintOk_refresh fx _

/-! ## Editing one pool in place -/

/-- The edited pool keeps the family its slot had, the overlay it takes over included. -/
def MutQuiet (arena : StateArena) (index : PoolIndex) (edit : PoolState → PoolState) : Prop :=
  ∀ slot st, arena.inner.pools[index]? = some slot → arena.poolState index = some st →
    (edit st).familyTag = slot.state.familyTag

lemma registers_poolStateMut (index : PoolIndex) (edit : PoolState → PoolState) :
    Registers 0 0 arena.inner (arena.poolStateMut index edit).inner := by
  exact Registers.of_pools (arena.length_pools_poolStateMut edit)

lemma layoutKept_poolStateMut {index : PoolIndex} {edit : PoolState → PoolState}
    (h : arena.MutQuiet index edit) :
    LayoutKept arena.inner (arena.poolStateMut index edit).inner := by
  refine ⟨rfl, rfl, rfl, List.ext_getElem? fun j => ?_, rfl⟩
  rw [List.getElem?_map, List.getElem?_map]
  by_cases hj : index = j
  · subst hj
    rw [getElem?_poolStateMut_self]
    cases hslot : arena.inner.pools[index]? with
    | none => rfl
    | some slot =>
        rcases arena.exists_poolState hslot with ⟨state, hstate⟩
        rw [Option.bind_some, hstate]
        exact congrArg some (h slot state hslot hstate)
  · rw [getElem?_poolStateMut_ne arena hj]

end StateArena

/-! ## Runs -/

/-- The operations of the arena; `poolStateMut` comes with what its caller writes. -/
inductive ArenaOp
  | clone
  | registerToken (address : Address)
  | registerPool (address : Address) (state : PoolArc)
  | poolStateMut (index : PoolIndex) (edit : PoolState → PoolState)
  | applyHotCache (cache : StateCache) (addresses : List Address)
  | applyHotCacheUnique (cache : StateCache) (addresses : List Address)
  | syncFromDiscoveryGated (cache : StateCache) (pools : List DiscoveredPool)
      (addressIndex : Address → Option ℕ) (hints : DecimalHints) (freezeAppend : Bool)

namespace ArenaOp

def apply (fx : FxHasher) (arena : StateArena) : ArenaOp → Run StateArena
  | .clone => some arena.clone
  | .registerToken address => some (arena.registerToken fx address).2
  | .registerPool address state => some (arena.registerPool fx address state).2
  | .poolStateMut index edit => some (arena.poolStateMut index edit)
  | .applyHotCache cache addresses => some (arena.applyHotCache cache addresses).2
  | .applyHotCacheUnique cache addresses => some (arena.applyHotCacheUnique cache addresses).2
  | .syncFromDiscoveryGated cache pools addressIndex hints freezeAppend =>
      (arena.syncFromDiscoveryGated fx cache pools addressIndex hints freezeAppend).map Prod.snd

/-- The 32-bit indices suffice for what the operation may register. -/
def HasRoom (arena : StateArena) : ArenaOp → Prop
  | .registerToken _ => arena.inner.tokens.length + 1 ≤ 2 ^ 32
  | .registerPool _ _ => arena.inner.pools.length + 1 ≤ 2 ^ 32
  | .syncFromDiscoveryGated cache pools addressIndex _ _ =>
      arena.SyncRoom (cache.tradableByDiscoveryIndex addressIndex) pools addressIndex
  | _ => True

/-- The operation changes the layout only where it also recomputes the fingerprint. -/
def LayoutQuiet (arena : StateArena) : ArenaOp → Prop
  | .poolStateMut index edit => arena.MutQuiet index edit
  | .syncFromDiscoveryGated cache pools addressIndex hints freezeAppend =>
      arena.SyncQuiet (cache.tradableByDiscoveryIndex addressIndex) pools addressIndex hints
        freezeAppend
  | _ => True

variable {fx : FxHasher} {arena next : StateArena} {op : ArenaOp}

/-- One operation keeps the tables. -/
theorem tablesOk_apply (h : op.apply fx arena = some next) (hroom : op.HasRoom arena)
    (ht : arena.inner.TablesOk) : next.inner.TablesOk := by
  cases op with
  | clone =>
      rw [← Option.some.inj h]
      exact ht
  | registerToken address =>
      rw [← Option.some.inj h]
      exact (StateArena.registers_registerToken fx arena address none true).tables ht (.inr hroom)
        (.inl rfl)
  | registerPool address state =>
      rw [← Option.some.inj h]
      exact (StateArena.registers_registerPool fx arena address state true).tables ht (.inl rfl)
        (.inr hroom)
  | poolStateMut index edit =>
      rw [← Option.some.inj h]
      exact (StateArena.registers_poolStateMut arena index edit).tables ht (.inl rfl) (.inl rfl)
  | applyHotCache cache addresses =>
      rw [← Option.some.inj h, StateArena.applyHotCache, StateArena.inner_applyHotCacheUnique]
      exact ht
  | applyHotCacheUnique cache addresses =>
      rw [← Option.some.inj h, StateArena.inner_applyHotCacheUnique]
      exact ht
  | syncFromDiscoveryGated cache pools addressIndex hints freezeAppend =>
      rw [apply, Option.map_eq_some_iff] at h
      rcases h with ⟨⟨report, arena'⟩, hsync, rfl⟩
      exact StateArena.tablesOk_syncTradable fx arena hsync hroom ht

/-- One quiet operation keeps the fingerprint. -/
theorem fingerprintOk_apply (h : op.apply fx arena = some next) (hq : op.LayoutQuiet arena)
    (hf : arena.inner.FingerprintOk fx) : next.inner.FingerprintOk fx := by
  cases op with
  | clone =>
      rw [← Option.some.inj h]
      exact hf
  | registerToken address =>
      rw [← Option.some.inj h]
      exact StateArena.fingerprintOk_registerToken fx arena address none hf
  | registerPool address state =>
      rw [← Option.some.inj h]
      exact StateArena.fingerprintOk_registerPool fx arena address state hf
  | poolStateMut index edit =>
      rw [← Option.some.inj h]
      exact (StateArena.layoutKept_poolStateMut arena hq).fingerprintOk hf
  | applyHotCache cache addresses =>
      rw [← Option.some.inj h, StateArena.applyHotCache, StateArena.inner_applyHotCacheUnique]
      exact hf
  | applyHotCacheUnique cache addresses =>
      rw [← Option.some.inj h, StateArena.inner_applyHotCacheUnique]
      exact hf
  | syncFromDiscoveryGated cache pools addressIndex hints freezeAppend =>
      rw [apply, Option.map_eq_some_iff] at h
      rcases h with ⟨⟨report, arena'⟩, hsync, rfl⟩
      exact StateArena.fingerprintOk_syncTradable fx arena hsync hq hf

end ArenaOp

/-- The arenas that runs from the default one reach through steps that meet `ok`. -/
inductive ArenaReachable (fx : FxHasher) (ok : StateArena → ArenaOp → Prop) : StateArena → Prop
  | default : ArenaReachable fx ok (StateArena.default fx)
  | step {arena next : StateArena} {op : ArenaOp} (h : ArenaReachable fx ok arena)
      (hok : ok arena op) (happly : op.apply fx arena = some next) : ArenaReachable fx ok next

/-- The tables are inverse bijections and the fingerprint is the one of the contents. -/
structure StateArena.IndexInvariant (fx : FxHasher) (arena : StateArena) : Prop where
  tables : arena.inner.TablesOk
  fingerprint : arena.inner.FingerprintOk fx

/-- In every run whose indices fit 32 bits the tables stay inverse bijections; if moreover every
step that does not recompute the fingerprint keeps the layout, the fingerprint stays right. -/
theorem arena_indexInvariant (fx : FxHasher) (arena : StateArena) :
    (ArenaReachable fx (fun a op => op.HasRoom a) arena → arena.inner.TablesOk) ∧
      (ArenaReachable fx (fun a op => op.HasRoom a ∧ op.LayoutQuiet a) arena →
        arena.IndexInvariant fx) := by
  constructor
  · intro h
    induction h with
    | default => exact ArenaInner.tablesOk_empty.refresh fx
    | step _ hroom happly ih => exact ArenaOp.tablesOk_apply happly hroom ih
  · intro h
    induction h with
    | default => exact ⟨ArenaInner.tablesOk_empty.refresh fx, ArenaInner.fingerprintOk_refresh fx _⟩
    | step _ hok happly ih =>
        exact ⟨ArenaOp.tablesOk_apply happly hok.1 ih.tables,
          ArenaOp.fingerprintOk_apply happly hok.2 ih.fingerprint⟩

/-! ### A pool that changes its family -/

/-- A multiplicative hash of the shape of `FxHasher`. -/
def mixHash : FxHasher := fun writes =>
  writes.foldl (fun h w =>
    (h + match w with
      | .u32 n | .usize n | .u8 n => BitVec.ofNat 64 n
      | .bytes addr => addr.setWidth 64) * 0xf1357aea2e62a9c5#64) 0

/-- A funded constant-product pool. -/
def fundedV2 : PoolState :=
  .v2 ⟨1000000000000000#256, 1000000000000001#256, 997#256, 1000#256, 1⟩

/-- A tickless pool at price one. -/
def ticklessV3 : PoolState := .v3 (poolAtPriceOne 0 [])

/-- The discovery row of the pool at address 1 with tokens 2 and 3. -/
def discoveredPair (protocol : ProtocolType) : DiscoveredPool :=
  ⟨1#160, protocol, [2#160, 3#160], 30, none⟩

/-- The sync of one cached pool. -/
def syncOne (state : PoolArc) (protocol : ProtocolType) : ArenaOp :=
  .syncFromDiscoveryGated ⟨[⟨1#160, state, 1, true⟩], 1⟩ [discoveredPair protocol]
    (fun a => if a = 1#160 then some 0 else none) none false

/-- The operations one after the other. -/
def runOps (fx : FxHasher) : List ArenaOp → StateArena → Run StateArena
  | [], arena => some arena
  | op :: ops, arena => (op.apply fx arena).bind (runOps fx ops)

lemma reachable_runOps {fx : FxHasher} {ok : StateArena → ArenaOp → Prop} (hok : ∀ a op, ok a op)
    (ops : List ArenaOp) :
    ∀ {arena next : StateArena}, ArenaReachable fx ok arena → runOps fx ops arena = some next →
      ArenaReachable fx ok next := by
  induction ops with
  | nil =>
      intro arena next h hrun
      rw [← Option.some.inj hrun]
      exact h
  | cons op ops ih =>
      intro arena next h hrun
      rw [runOps, Option.bind_eq_some_iff] at hrun
      rcases hrun with ⟨mid, happly, hrest⟩
      exact ih (.step h (hok arena op) happly) hrest

/-- A rebuild followed by an edit of the reserves keeps the invariant. -/
theorem arena_indexInvariant_edit :
    ∃ arena, ArenaReachable mixHash (fun a op => op.HasRoom a ∧ op.LayoutQuiet a) arena ∧
      arena.inner.tokens = [2#160, 3#160] ∧ arena.IndexInvariant mixHash := by
  have hsync : ((syncOne ⟨some 5, fundedV2⟩ .uniswapV2).apply mixHash (.default mixHash)).any
      (fun a => a.inner.pools = [⟨some 5, fundedV2⟩] ∧ a.hotOverlay = [] ∧
        a.inner.tokens = [2#160, 3#160]) = true := by decide +kernel
  rcases (Option.any_eq_true _ _).1 hsync with ⟨first, hfirst, hprop⟩
  rcases of_decide_eq_true hprop with ⟨hpools, hover, htokens⟩
  have hroom : (syncOne ⟨some 5, fundedV2⟩ .uniswapV2).HasRoom (.default mixHash) := by
    show _ ≤ _ ∧ _ ≤ _
    decide +kernel
  have hquiet : (syncOne ⟨some 5, fundedV2⟩ .uniswapV2).LayoutQuiet (.default mixHash) := by
    rw [syncOne, ArenaOp.LayoutQuiet, StateArena.SyncQuiet,
      show StateArena.arenaReuseForTradable _ _ _ _ = some StateArena.ArenaReuse.rebuild by
        decide +kernel]
    intro hfrozen
    exact absurd hfrozen (by decide)
  have hstep : ArenaReachable mixHash (fun a op => op.HasRoom a ∧ op.LayoutQuiet a) first :=
    .step .default ⟨hroom, hquiet⟩ hfirst
  have hedit : (ArenaOp.poolStateMut 0 fun _ => fundedV2).LayoutQuiet first := by
    intro slot st hslot _
    rw [hpools] at hslot
    rw [← Option.some.inj hslot]
  have hroom' : (ArenaOp.poolStateMut 0 fun _ => fundedV2).HasRoom first := trivial
  have hreach : ArenaReachable mixHash (fun a op => op.HasRoom a ∧ op.LayoutQuiet a)
      (first.poolStateMut 0 fun _ => fundedV2) := .step hstep ⟨hroom', hedit⟩ rfl
  exact ⟨_, hreach, htokens, (arena_indexInvariant mixHash _).2 hreach⟩

/-- The pool is refreshed in place from a constant-product to a concentrated-liquidity state, and
the fingerprint still is the old one. -/
theorem arena_fingerprint_stale :
    ¬ ∀ (fx : FxHasher) (arena : StateArena),
      ArenaReachable fx (fun _ _ => True) arena → arena.IndexInvariant fx := by
  intro h
  have hrun : (runOps mixHash
      [syncOne ⟨some 5, fundedV2⟩ .uniswapV2, syncOne ⟨some 7, ticklessV3⟩ .uniswapV3]
      (.default mixHash)).any
      (fun a => a.inner.layoutFingerprint ≠ computeLayoutFingerprint mixHash a.inner) = true := by
    decide +kernel
  rcases (Option.any_eq_true _ _).1 hrun with ⟨arena, harena, hne⟩
  have hreach := reachable_runOps (fun _ _ => trivial) _ .default harena
  exact of_decide_eq_true hne (h mixHash arena hreach).fingerprint

end PolygonArb

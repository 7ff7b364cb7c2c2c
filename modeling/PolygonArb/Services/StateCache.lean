import Mathlib.Data.List.AList
import PolygonArb.Lib.Transition
import PolygonArb.Pipeline.HopSim

/-!
# The pool state cache

`StateCache` of `services/state_cache.rs` as the writers see it: a map from pool addresses to entries,
a generation counter that gives every stored state its revision, and the set of pools written since
the last drain.  A map has no order of its own, so an insertion is told the order in which the hash
map would hand out its keys; `now` is the clock.

A consumer that keys its results by revision relies on `insert_revision_sound`: an insertion that
leaves the revision of an entry alone leaves its quotes alone.  That holds as long as the fields that
`poolStatePriceLevelEq` does not look at and a quote does (`UnseenFieldsAgree`) are unchanged.
-/

namespace PolygonArb

open Word Transition

structure CachedEntry where
  state : PoolState
  updatedAt : ℕ
  revision : ℕ
  deriving DecidableEq

/-- `StateCache` with its locks taken. -/
structure StateStore where
  inner : AList fun _ : Address => CachedEntry
  maxEntries : ℕ
  ttl : ℕ
  generation : ℕ
  dirty : Finset Address

/-! ## Eviction -/

/-- The oldest sampled entry of each tier, with its time. -/
structure EvictionTiers where
  expired : Option (Address × ℕ)
  invalid : Option (Address × ℕ)
  untradable : Option (Address × ℕ)
  tradable : Option (Address × ℕ)

/-- The older of the two; the smaller address on a tie. -/
def evictionTierCandidate (best : Option (Address × ℕ)) (addr : Address) (updatedAt : ℕ) :
    Option (Address × ℕ) :=
  match best with
  | none => some (addr, updatedAt)
  | some (bestAddr, bestAt) =>
      if updatedAt < bestAt then some (addr, updatedAt)
      else if updatedAt = bestAt ∧ addr < bestAddr then some (addr, updatedAt)
      else some (bestAddr, bestAt)

/-- `EVICTION_SAMPLE`. -/
def evictionSample : ℕ := 64

/-- The tiers after one more sampled entry. -/
def sortEntry (ttl now : ℕ) (tiers : EvictionTiers) (row : Address × CachedEntry) : EvictionTiers :=
  let (addr, entry) := row
  let updatedAt := entry.updatedAt
  if ttl < now - updatedAt then
    { tiers with expired := evictionTierCandidate tiers.expired addr updatedAt }
  else if entry.state = .invalid then
    { tiers with invalid := evictionTierCandidate tiers.invalid addr updatedAt }
  else if entry.state.isTradable = false then
    { tiers with untradable := evictionTierCandidate tiers.untradable addr updatedAt }
  else { tiers with tradable := evictionTierCandidate tiers.tradable addr updatedAt }

/-- The victim among the first entries in iteration order. -/
def pickEvictionVictim (rows : List (Address × CachedEntry)) (ttl now : ℕ) : Option Address :=
  let tiers := (rows.take evictionSample).foldl (sortEntry ttl now) ⟨none, none, none, none⟩
  (((tiers.expired.or tiers.invalid).or tiers.untradable).or tiers.tradable).map Prod.fst

/-! ## Price levels -/

/-- Both legs of a WooFi base quote as the cache compares them. -/
def sameWoofiLevel (a b : WoofiBaseTokenState) : Bool := a.reserve = b.reserve && a.price = b.price

def sameClLevel (x y : ConcentratedLiquidityPoolState) : Bool :=
  x.sqrtPriceX96 = y.sqrtPriceX96 && x.liquidity = y.liquidity && x.tick = y.tick && x.fee = y.fee

/-- Price-level equality, not of full tick arrays. -/
def poolStatePriceLevelEq : PoolState → PoolState → Bool
  | .v2 x, .v2 y =>
      x.reserve0 = y.reserve0 && x.reserve1 = y.reserve1 && x.fee = y.fee
        && x.feeDenominator = y.feeDenominator
  | .v3 x, .v3 y | .v4 x, .v4 y => sameClLevel x y
  | .invalid, .invalid => true
  | .dodo x, .dodo y =>
      x.baseReserve = y.baseReserve && x.quoteReserve = y.quoteReserve && x.i = y.i && x.k = y.k
  | .curve x, .curve y => x.balances = y.balances && x.a = y.a && x.fee = y.fee && x.d = y.d
  | .balancer x, .balancer y => x.balances = y.balances && x.weights = y.weights && x.fee = y.fee
  | .woofi x, .woofi y =>
      x.quoteReserve = y.quoteReserve && x.fee = y.fee && x.baseStates.length = y.baseStates.length
        && (x.baseStates.zip y.baseStates).all fun (a, b) => sameWoofiLevel a b
  | _, _ => false

/-- The pairs whose stored state survives a refresh of the same price level. -/
def keepsClTicks : PoolState → PoolState → Bool
  | .v3 _, .v3 _ | .v4 _, .v4 _ => true
  | _, _ => false

/-! ## The operations -/

namespace StateStore

/-- `StateCache::new`. -/
def new (maxEntries ttl : ℕ) : StateStore := ⟨∅, maxEntries, ttl, 0, ∅⟩

variable (store : StateStore)

/-- `generation.fetch_add(1)`: the counter wraps. -/
def nextGeneration : ℕ := (store.generation + 1) % 2 ^ 64

/-- The revision an entry written now gets: one more than the counter was, saturating. -/
def nextRevision : ℕ := min (store.generation + 1) (2 ^ 64 - 1)

/-- The entry of a pool, expired or not. -/
def entry (address : Address) : Option CachedEntry := store.inner.lookup address

/-- The state of a pool, expired or not. -/
def cached (address : Address) : Option PoolState := (store.entry address).map CachedEntry.state

/-- Unexpired state of a pool. -/
def lookupPoolState (address : Address) (now : ℕ) : Option PoolState :=
  (store.entry address).bind fun e => if now - e.updatedAt ≤ store.ttl then some e.state else none

/-- A write with a new revision, after a victim has made room. -/
def write (victim : Option Address) (address : Address) (state : PoolState) (now : ℕ) : StateStore :=
  let kept := match victim with
    | some v => store.inner.erase v
    | none => store.inner
  { store with
    inner := kept.insert address ⟨state, now, store.nextRevision⟩
    generation := store.nextGeneration
    dirty := insert address (store.dirty ∪ victim.toFinset) }

/-- The victim of an insertion into a full cache. -/
def victimFor (now : ℕ) (order : List Address) : Option Address :=
  if store.inner.keys.length < store.maxEntries then none
  else
    pickEvictionVictim (order.filterMap fun a => (store.entry a).map fun e => (a, e)) store.ttl now

/-- An entry whose price level did not move keeps its revision. -/
def refreshed (existing : CachedEntry) (state : PoolState) (now : ℕ) : CachedEntry :=
  { existing with
    updatedAt := now
    state := if keepsClTicks existing.state state then existing.state else state }

def insert (address : Address) (state : PoolState) (now : ℕ) (order : List Address) : StateStore :=
  if store.maxEntries = 0 then store
  else
    match store.entry address with
    | some existing =>
        if poolStatePriceLevelEq existing.state state then
          { store with inner := store.inner.insert address (refreshed existing state now) }
        else store.write none address state now
    | none => store.write (store.victimFor now order) address state now

def remove (address : Address) : StateStore :=
  match store.entry address with
  | none => store
  | some _ =>
      { store with
        inner := store.inner.erase address
        generation := store.nextGeneration
        dirty := Insert.insert address store.dirty }

/-- `patch_pool`: an edit in place, and whether the pool has an entry.  The edit says whether it
changed anything. -/
def patchPool (address : Address) (f : PoolState → PoolState × Bool) (now : ℕ) :
    Bool × StateStore :=
  match store.entry address with
  | none => (false, store)
  | some e =>
      let (state, changed) := f e.state
      if changed then
        (true, { store with
          inner := store.inner.insert address ⟨state, now, store.nextRevision⟩
          generation := store.nextGeneration
          dirty := Insert.insert address store.dirty })
      else (true, { store with inner := store.inner.insert address { e with state := state } })

/-- The drain of the dirty set. -/
def takeDirty : Finset Address × StateStore := (store.dirty, { store with dirty := ∅ })

end StateStore

inductive StoreOp
  | insert (address : Address) (state : PoolState) (now : ℕ) (order : List Address)
  | remove (address : Address)
  | patchPool (address : Address) (f : PoolState → PoolState × Bool) (now : ℕ)
  | takeDirty

/-- Every operation can be called in every state. -/
def StateStore.step (store : StateStore) : StoreOp → Option StateStore
  | .insert address state now order => some (store.insert address state now order)
  | .remove address => some (store.remove address)
  | .patchPool address f now => some (store.patchPool address f now).2
  | .takeDirty => some store.takeDirty.2

/-! ## Revisions

An entry's revision never runs ahead of the counter, so a write that stamps an entry changes its
revision.  The only insertions that do not are the ones that found the same price level. -/

namespace StateStore

variable {store store' : StateStore} {address : Address} {state : PoolState} {now : ℕ}
  {order : List Address}

/-- No entry carries a revision that the counter has not reached. -/
def RevisionsBelow (store : StateStore) : Prop :=
  ∀ address e, store.entry address = some e → e.revision ≤ store.generation

/-- The counter is not about to wrap. -/
def CounterLeft (store : StateStore) : Prop := store.generation + 1 < 2 ^ 64

lemma nextGeneration_eq (h : store.CounterLeft) : store.nextGeneration = store.generation + 1 :=
  Nat.mod_eq_of_lt h

lemma nextRevision_eq (h : store.CounterLeft) : store.nextRevision = store.generation + 1 := by
  rw [CounterLeft] at h
  rw [nextRevision]
  omega

lemma lookup_insert_cases {inner : AList fun _ : Address => CachedEntry} {a b : Address}
    {e e' : CachedEntry} (h : (inner.insert a e).lookup b = some e') :
    b = a ∧ e' = e ∨ inner.lookup b = some e' := by
  by_cases hb : b = a
  · subst hb
    rw [AList.lookup_insert] at h
    exact Or.inl ⟨rfl, (Option.some.inj h).symm⟩
  · rw [AList.lookup_insert_ne hb] at h
    exact Or.inr h

lemma lookup_of_lookup_erase {inner : AList fun _ : Address => CachedEntry} {a b : Address}
    {e : CachedEntry} (h : (inner.erase a).lookup b = some e) : inner.lookup b = some e := by
  by_cases hb : b = a
  · subst hb
    rw [AList.lookup_erase] at h
    cases h
  · rwa [AList.lookup_erase_ne hb] at h

lemma revisionsBelow_new (maxEntries ttl : ℕ) : (new maxEntries ttl).RevisionsBelow := by
  intro address e h
  rw [entry, new, AList.lookup_empty] at h
  cases h

/-- A map of old entries and one entry stamped now. -/
lemma RevisionsBelow.stamped (h : store.RevisionsBelow) (hleft : store.CounterLeft)
    {inner : AList fun _ : Address => CachedEntry} {dirty : Finset Address}
    (hinner : ∀ b e, inner.lookup b = some e →
      store.entry b = some e ∨ e.revision = store.nextRevision) :
    RevisionsBelow { store with inner, generation := store.nextGeneration, dirty } := by
  intro b e hb
  show e.revision ≤ store.nextGeneration
  rw [nextGeneration_eq hleft]
  rcases hinner b e hb with hold | hnew
  · exact Nat.le_succ_of_le (h b e hold)
  · rw [hnew, nextRevision_eq hleft]

lemma RevisionsBelow.write (h : store.RevisionsBelow) (hleft : store.CounterLeft)
    (victim : Option Address) : (store.write victim address state now).RevisionsBelow := by
  refine h.stamped hleft ?_
  intro b e hb
  rcases lookup_insert_cases hb with ⟨-, rfl⟩ | hold
  · exact Or.inr rfl
  · cases victim with
    | none => exact Or.inl hold
    | some v => exact Or.inl (lookup_of_lookup_erase hold)

/-- Overwriting an entry under its own revision. -/
lemma RevisionsBelow.overwrite (h : store.RevisionsBelow) {e e' : CachedEntry}
    (he : store.entry address = some e) (hrev : e'.revision = e.revision) :
    RevisionsBelow { store with inner := store.inner.insert address e' } := by
  intro b e'' hb
  rcases lookup_insert_cases hb with ⟨rfl, rfl⟩ | hold
  · rw [hrev]
    exact h _ _ he
  · exact h _ _ hold

lemma RevisionsBelow.step {op : StoreOp} (h : store.RevisionsBelow) (hleft : store.CounterLeft)
    (hstep : store.step op = some store') : store'.RevisionsBelow := by
  cases op with
  | insert address state now order =>
      cases hstep
      rw [StateStore.insert]
      split_ifs with hmax
      · exact h
      split
      · rename_i existing hex
        split_ifs with heq
        · exact h.overwrite hex rfl
        · exact h.write hleft none
      · exact h.write hleft _
  | remove address =>
      cases hstep
      rw [StateStore.remove]
      split
      · exact h
      · refine h.stamped hleft ?_
        intro b e hb
        exact Or.inl (lookup_of_lookup_erase hb)
  | patchPool address f now =>
      cases hstep
      rw [StateStore.patchPool]
      split
      · exact h
      · rename_i e he
        dsimp only
        split_ifs with hchanged
        · refine h.stamped hleft ?_
          intro b e' hb
          rcases lookup_insert_cases hb with ⟨-, rfl⟩ | hold
          · exact Or.inr rfl
          · exact Or.inl hold
        · exact h.overwrite he rfl
  | takeDirty =>
      cases hstep
      exact h

/-- An insertion that leaves the revision of an entry alone found its price level. -/
lemma insert_keeps_revision (h : store.RevisionsBelow) (hleft : store.CounterLeft)
    {old new : CachedEntry} (hold : store.entry address = some old)
    (hnew : (store.insert address state now order).entry address = some new)
    (hrev : new.revision = old.revision) :
    new.state = old.state ∨
      poolStatePriceLevelEq old.state state = true ∧ keepsClTicks old.state state = false ∧
        new.state = state := by
  rw [StateStore.insert] at hnew
  split_ifs at hnew with hmax
  · rw [hold] at hnew
    rw [Option.some.inj hnew]
    exact Or.inl rfl
  rw [hold] at hnew
  dsimp only at hnew
  split_ifs at hnew with heq
  · rw [entry, AList.lookup_insert] at hnew
    rw [← Option.some.inj hnew, refreshed]
    cases hcl : keepsClTicks old.state state with
    | true => exact Or.inl rfl
    | false => exact Or.inr ⟨heq, rfl, rfl⟩
  · rw [entry, StateStore.write, AList.lookup_insert] at hnew
    rw [← Option.some.inj hnew] at hrev
    have hlt : store.nextRevision ≤ store.generation := le_of_eq_of_le hrev (h _ _ hold)
    rw [nextRevision_eq hleft] at hlt
    omega

end StateStore

/-! ## What the operations do to the stored states -/

namespace StateStore

variable {store : StateStore} {address pool : Address} {state st : PoolState} {now : ℕ}
  {order : List Address}

/-- An edit reaches the pool it names and no other. -/
lemma cached_patchPool (f : PoolState → PoolState × Bool) :
    (store.patchPool address f now).2.cached pool =
      if pool = address then (store.cached address).map fun st => (f st).1
      else store.cached pool := by
  by_cases hpool : pool = address
  · subst hpool
    rw [if_pos rfl, patchPool]
    cases he : store.entry pool with
    | none => simp [cached, he]
    | some e =>
        have hcached : store.cached pool = some e.state := by rw [cached, he, Option.map_some]
        rw [hcached]
        dsimp only
        split_ifs <;> simp [cached, entry, AList.lookup_insert]
  · rw [if_neg hpool, patchPool]
    cases he : store.entry address with
    | none => rfl
    | some e =>
        dsimp only
        split_ifs <;> simp [cached, entry, AList.lookup_insert_ne hpool]

lemma cached_remove (h : (store.remove address).cached pool = some st) :
    store.cached pool = some st := by
  rw [remove] at h
  cases he : store.entry address with
  | none => rwa [he] at h
  | some e =>
      rw [he] at h
      simp only [cached, entry, Option.map_eq_some_iff] at h ⊢
      rcases h with ⟨e', hlook, hst⟩
      exact ⟨e', lookup_of_lookup_erase hlook, hst⟩

lemma cached_write_ne {victim : Option Address} (hpool : pool ≠ address)
    (h : (store.write victim address state now).cached pool = some st) :
    store.cached pool = some st := by
  simp only [write, cached, entry, Option.map_eq_some_iff, AList.lookup_insert_ne hpool] at h ⊢
  rcases h with ⟨e, hlook, hst⟩
  cases victim with
  | none => exact ⟨e, hlook, hst⟩
  | some v => exact ⟨e, lookup_of_lookup_erase hlook, hst⟩

lemma cached_write_self {victim : Option Address} :
    (store.write victim address state now).cached address = some state := by
  simp [write, cached, entry, AList.lookup_insert]

/-- An insertion may evict another pool; it changes no other state. -/
lemma cached_insert_ne (hpool : pool ≠ address)
    (h : (store.insert address state now order).cached pool = some st) :
    store.cached pool = some st := by
  rw [StateStore.insert] at h
  split_ifs at h with hmax
  · exact h
  cases he : store.entry address with
  | none =>
      rw [he] at h
      exact cached_write_ne hpool h
  | some existing =>
      rw [he] at h
      dsimp only at h
      split_ifs at h with heq
      · simpa only [cached, entry, AList.lookup_insert_ne hpool] using h
      · exact cached_write_ne hpool h

/-- An inserted state is stored, unless a state of its price level stays for its ticks. -/
lemma cached_insert_self (hmax : store.maxEntries ≠ 0)
    (h : (store.insert address state now order).cached address = some st) :
    st = state ∨ poolStatePriceLevelEq st state = true ∧ keepsClTicks st state = true := by
  rw [StateStore.insert, if_neg hmax] at h
  cases he : store.entry address with
  | none =>
      rw [he] at h
      exact Or.inl (Option.some.inj (h.symm.trans cached_write_self))
  | some existing =>
      rw [he] at h
      dsimp only at h
      split_ifs at h with heq
      · simp only [cached, entry, AList.lookup_insert, Option.map_some, Option.some.injEq] at h
        rw [← h, refreshed]
        cases hcl : keepsClTicks existing.state state with
        | true => exact Or.inr ⟨heq, hcl⟩
        | false => exact Or.inl rfl
      · exact Or.inl (Option.some.inj (h.symm.trans cached_write_self))

/-- A cache of no capacity holds nothing. -/
def IdleEmpty (store : StateStore) : Prop := store.maxEntries = 0 → ∀ pool, store.cached pool = none

@[simp] lemma maxEntries_insert :
    (store.insert address state now order).maxEntries = store.maxEntries := by
  rw [StateStore.insert]
  split_ifs
  · rfl
  · split
    · split_ifs <;> rfl
    · rfl

@[simp] lemma maxEntries_patchPool (f : PoolState → PoolState × Bool) :
    (store.patchPool address f now).2.maxEntries = store.maxEntries := by
  rw [patchPool]
  split
  · rfl
  · dsimp only
    split_ifs <;> rfl

@[simp] lemma maxEntries_remove : (store.remove address).maxEntries = store.maxEntries := by
  rw [remove]
  split <;> rfl

lemma IdleEmpty.insert (h : store.IdleEmpty) :
    (store.insert address state now order).IdleEmpty := by
  intro hmax pool
  rw [maxEntries_insert] at hmax
  rw [StateStore.insert, if_pos hmax]
  exact h hmax pool

lemma IdleEmpty.remove (h : store.IdleEmpty) : (store.remove address).IdleEmpty := by
  intro hmax pool
  rw [maxEntries_remove] at hmax
  rw [Option.eq_none_iff_forall_ne_some]
  intro st hst
  have hnone := h hmax pool
  rw [cached_remove hst] at hnone
  cases hnone

lemma IdleEmpty.patchPool (h : store.IdleEmpty) (f : PoolState → PoolState × Bool) :
    (store.patchPool address f now).2.IdleEmpty := by
  intro hmax pool
  rw [maxEntries_patchPool] at hmax
  rw [cached_patchPool, h hmax, h hmax]
  split_ifs <;> rfl

end StateStore

/-! ## Quotes -/

/-- The parameters of a WooFi base quote that the cache does not compare. -/
def sameWoofiParameters (a b : WoofiBaseTokenState) : Prop :=
  a.spread = b.spread ∧ a.coeff = b.coeff ∧ a.baseDec = b.baseDec ∧ a.quoteDec = b.quoteDec ∧
    a.priceDec = b.priceDec ∧ a.feeRate = b.feeRate ∧ a.maxGamma = b.maxGamma ∧
    a.maxNotionalSwap = b.maxNotionalSwap

/-- What the quote of one kind of Balancer pool reads besides the fields all kinds have. -/
def sameBalancerKind (x y : BalancerPoolState) : Prop :=
  x.poolType = y.poolType ∧
    match x.poolType with
    | .weighted => True
    | .stable => x.amp = y.amp ∧ x.ampPrecision = y.ampPrecision ∧ x.bptIndex = y.bptIndex
    | .linear => x.linear = y.linear

/-- The states agree on the fields that a quote of their family reads and the cache does not
compare.  Concentrated-liquidity states are not replaced, and constant-product quotes read nothing
else. -/
def UnseenFieldsAgree : PoolState → PoolState → Prop
  | .curve x, .curve y =>
      x.rates = y.rates ∧ x.nCoins = y.nCoins ∧ x.gamma = y.gamma ∧
        x.offpegFeeMultiplier = y.offpegFeeMultiplier
  | .balancer x, .balancer y => x.scalingFactors = y.scalingFactors ∧ sameBalancerKind x y
  | .dodo x, .dodo y =>
      x.baseTarget = y.baseTarget ∧ x.quoteTarget = y.quoteTarget ∧ x.rState = y.rState ∧
        x.lpFeeRate = y.lpFeeRate ∧ x.mtFeeRate = y.mtFeeRate
  | .woofi x, .woofi y => List.Forall₂ sameWoofiParameters x.baseStates y.baseStates
  | _, _ => True

section Quotes

variable {edge : Edge} {amountIn cap : U256}

lemma simulateHop_congr {a b : PoolState}
    (h : simulateHopByFamily a edge amountIn cap = simulateHopByFamily b edge amountIn cap) :
    simulateHop a edge amountIn cap = simulateHop b edge amountIn cap := by
  rw [simulateHop, simulateHop, h]

lemma simulateV2Swap_congr {x y : V2PoolState}
    (h : poolStatePriceLevelEq (.v2 x) (.v2 y) = true) (amountIn : U256) (zeroForOne : Bool)
    (fee : Option ℕ) :
    simulateV2Swap x amountIn zeroForOne fee = simulateV2Swap y amountIn zeroForOne fee ∧
      v2ReserveIn x zeroForOne = v2ReserveIn y zeroForOne := by
  simp only [poolStatePriceLevelEq, Bool.and_eq_true, decide_eq_true_eq] at h
  rcases h with ⟨⟨⟨h0, h1⟩, hf⟩, hd⟩
  simp only [simulateV2Swap, resolveV2FeeWithEdge, v2ReserveIn, h0, h1, hf, hd, and_self]

lemma simulateBalancerSwap_congr {x y : BalancerPoolState}
    (h : poolStatePriceLevelEq (.balancer x) (.balancer y) = true)
    (hs : x.scalingFactors = y.scalingFactors) (hk : sameBalancerKind x y) (i j : ℕ) :
    simulateBalancerSwap x amountIn i j = simulateBalancerSwap y amountIn i j := by
  simp only [poolStatePriceLevelEq, Bool.and_eq_true, decide_eq_true_eq] at h
  rcases h with ⟨⟨hb, hw⟩, hf⟩
  rcases hk with ⟨ht, hk⟩
  simp only [simulateBalancerSwap, ← ht, hb]
  cases hkind : x.poolType with
  | weighted => simp only [getBalancerWeightedAmountOut, hb, hw, hf, hs]
  | stable =>
      rw [hkind] at hk
      rcases hk with ⟨ha, hp, hbpt⟩
      simp only [getBalancerStableAmountOut, hb, hf, hs, ha, hp, hbpt]
  | linear =>
      rw [hkind] at hk
      simp only [getBalancerLinearAmountOut, hb, hf, hs, hk]

lemma getDodoAmountOut_congr {x y : DodoPoolState}
    (h : poolStatePriceLevelEq (.dodo x) (.dodo y) = true)
    (hu : UnseenFieldsAgree (.dodo x) (.dodo y)) (baseToQuote : Bool) :
    getDodoAmountOut x amountIn baseToQuote = getDodoAmountOut y amountIn baseToQuote := by
  simp only [poolStatePriceLevelEq, Bool.and_eq_true, decide_eq_true_eq] at h
  rcases h with ⟨⟨⟨hb, hq⟩, hi⟩, hk⟩
  rcases hu with ⟨hbt, hqt, hr, hlp, hmt⟩
  have hgross : getDodoGrossAmountOut x amountIn baseToQuote =
      getDodoGrossAmountOut y amountIn baseToQuote := by
    simp only [getDodoGrossAmountOut, hb, hq, hi, hk, hbt, hqt, hr]
  simp only [getDodoAmountOut, hgross, hlp, hmt]

/-- The quote of a Curve pool reads every field, and what is compared and what is not make all. -/
lemma curveState_eq {x y : CurvePoolState}
    (h : poolStatePriceLevelEq (.curve x) (.curve y) = true)
    (hu : UnseenFieldsAgree (.curve x) (.curve y)) : x = y := by
  simp only [poolStatePriceLevelEq, Bool.and_eq_true, decide_eq_true_eq] at h
  rcases x with ⟨⟩
  rcases y with ⟨⟩
  rcases h with ⟨⟨⟨rfl, rfl⟩, rfl⟩, rfl⟩
  rcases hu with ⟨rfl, rfl, rfl, rfl⟩
  rfl

/-- The compared half and the other half of a WooFi base quote make the whole. -/
lemma woofiBase_eq {a b : WoofiBaseTokenState} (h : sameWoofiLevel a b = true)
    (hp : sameWoofiParameters a b) : a = b := by
  simp only [sameWoofiLevel, Bool.and_eq_true, decide_eq_true_eq] at h
  rcases a with ⟨⟩
  rcases b with ⟨⟩
  rcases h with ⟨rfl, rfl⟩
  rcases hp with ⟨rfl, rfl, rfl, rfl, rfl, rfl, rfl, rfl⟩
  rfl

lemma baseStates_eq {xs ys : List WoofiBaseTokenState}
    (h : List.Forall₂ sameWoofiParameters xs ys)
    (hall : ((xs.zip ys).all fun (a, b) => sameWoofiLevel a b) = true) : xs = ys := by
  induction h with
  | nil => rfl
  | cons hab _ ih =>
      simp only [List.zip_cons_cons, List.all_cons, Bool.and_eq_true] at hall
      rw [woofiBase_eq hall.1 hab, ih hall.2]

/-- States of one price level that agree on the other fields quote every hop alike. -/
theorem simulateHop_eq_of_priceLevelEq {a b : PoolState}
    (h : poolStatePriceLevelEq a b = true) (hcl : keepsClTicks a b = false)
    (hu : UnseenFieldsAgree a b) :
    simulateHop a edge amountIn cap = simulateHop b edge amountIn cap := by
  refine simulateHop_congr ?_
  rcases edge with ⟨pool, tokenIn, tokenOut, i, j, protocol, fee, zeroForOne⟩
  cases a <;> cases b <;> try (cases h; done)
  case invalid.invalid => rfl
  case v2.v2 x y =>
      cases protocol with
      | uniswapV2 =>
          rcases simulateV2Swap_congr h amountIn zeroForOne (some fee) with ⟨hswap, hres⟩
          simp only [simulateHopByFamily, hswap, hres]
      | _ => rfl
  case v3.v3 => cases hcl
  case v4.v4 => cases hcl
  case curve.curve x y => rw [curveState_eq h hu]
  case balancer.balancer x y =>
      cases protocol with
      | balancerV2 => simp only [simulateHopByFamily, simulateBalancerSwap_congr h hu.1 hu.2]
      | _ => rfl
  case dodo.dodo x y =>
      cases protocol with
      | dodo => simp only [simulateHopByFamily, getDodoAmountOut_congr h hu]
      | _ => rfl
  case woofi.woofi x y =>
      cases protocol with
      | woofi =>
          simp only [poolStatePriceLevelEq, Bool.and_eq_true, decide_eq_true_eq] at h
          have hbase := baseStates_eq hu h.2
          have hquote := h.1.1.1
          simp only [simulateHopByFamily, woofiBaseIdx, getWoofiAmountOut, woofiBaseToBase, hbase,
            hquote]
      | _ => rfl

end Quotes

namespace StateStore

/-- The counter has room, and an insertion that finds the price level of the stored state finds its
other quote fields too. -/
def RevisionSafe (store : StateStore) (op : StoreOp) : Prop :=
  store.CounterLeft ∧
    match op with
    | .insert address state _ _ =>
        ∀ e, store.entry address = some e → poolStatePriceLevelEq e.state state = true →
          UnseenFieldsAgree e.state state
    | _ => True

/-- The stores a run of safe operations on an empty cache reaches. -/
def SafelyReached (maxEntries ttl : ℕ) (store : StateStore) : Prop :=
  Reachable StateStore.step RevisionSafe (fun s => s = new maxEntries ttl) store

lemma SafelyReached.revisionsBelow {maxEntries ttl : ℕ} {store : StateStore}
    (h : SafelyReached maxEntries ttl store) : store.RevisionsBelow := by
  refine Reachable.inv RevisionsBelow ?_ ?_ h
  · rintro s rfl
    exact revisionsBelow_new maxEntries ttl
  · intro s op s' hinv hok hstep
    exact hinv.step hok.1 hstep

/-- An insertion that replaces a state under its revision replaces it by one with the same quotes. -/
theorem insert_revision_sound {maxEntries ttl : ℕ} {store : StateStore}
    (hrun : SafelyReached maxEntries ttl store) {address : Address} {state : PoolState} {now : ℕ}
    {order : List Address} (hsafe : store.RevisionSafe (.insert address state now order))
    {old new : CachedEntry} (hold : store.entry address = some old)
    (hnew : (store.insert address state now order).entry address = some new)
    (hrev : new.revision = old.revision) (edge : Edge) (amountIn cap : U256) :
    simulateHop old.state edge amountIn cap = simulateHop new.state edge amountIn cap := by
  rcases hsafe with ⟨hleft, hfields⟩
  rcases insert_keeps_revision hrun.revisionsBelow hleft hold hnew hrev with hsame | hlevel
  · rw [hsame]
  · rcases hlevel with ⟨heq, hcl, hstate⟩
    rw [hstate]
    exact simulateHop_eq_of_priceLevelEq heq hcl (hfields old hold heq)

end StateStore

/-- A balanced DODO pool at price one with no slippage. -/
def flatDodo (quoteToken : Address) (lpFeeRate : U256) : PoolState :=
  .dodo
    { baseReserve := one18
      quoteReserve := one18
      baseToken := 1
      quoteToken := quoteToken
      baseTarget := one18
      quoteTarget := one18
      rState := .one
      i := one18
      k := 0
      lpFeeRate := lpFeeRate
      mtFeeRate := 0 }

/-- The sale of the base token of pool `0` for its quote token. -/
def dodoSale : Edge := ⟨0, 0, 1, 0, 1, .dodo, 0, true⟩

def flatDodoStore : StateStore := (StateStore.new 16 600).insert 7 (flatDodo 0 0) 0 []

namespace StateStore

lemma safelyReached_flatDodoStore : SafelyReached 16 600 flatDodoStore := by
  refine Reachable.step (a := .insert 7 (flatDodo 0 0) 0 []) (Reachable.init rfl) ⟨?_, ?_⟩ rfl
  · show 0 + 1 < 2 ^ 64
    decide
  · intro e he
    cases he

/-- A refresh that learns the quote token's address. -/
theorem insert_revision_sound_flatDodo :
    simulateHop (flatDodo 0 0) dodoSale 1000 maxValue =
      simulateHop (flatDodo 2 0) dodoSale 1000 maxValue := by
  have hsafe : flatDodoStore.RevisionSafe (.insert 7 (flatDodo 2 0) 5 []) := by
    constructor
    · show 1 + 1 < 2 ^ 64
      decide
    · intro e he _
      cases he
      exact ⟨rfl, rfl, rfl, rfl, rfl⟩
  have hold : flatDodoStore.entry 7 = some ⟨flatDodo 0 0, 0, 1⟩ := rfl
  have hnew : (flatDodoStore.insert 7 (flatDodo 2 0) 5 []).entry 7 = some ⟨flatDodo 2 0, 5, 1⟩ :=
    rfl
  exact insert_revision_sound safelyReached_flatDodoStore hsafe hold hnew rfl dodoSale 1000 maxValue

/-- The pool's fee rate rises to one half: the revision stays, the quote halves. -/
theorem insert_keeps_stale_revision :
    ∃ old new : CachedEntry,
      flatDodoStore.entry 7 = some old ∧
        (flatDodoStore.insert 7 (flatDodo 0 500000000000000000) 5 []).entry 7 = some new ∧
        new.revision = old.revision ∧
        simulateHop old.state dodoSale 1000 maxValue = some (.ok ⟨1000, gasDodoHop⟩) ∧
        simulateHop new.state dodoSale 1000 maxValue = some (.ok ⟨500, gasDodoHop⟩) :=
  ⟨⟨flatDodo 0 0, 0, 1⟩, ⟨flatDodo 0 500000000000000000, 5, 1⟩, rfl, rfl, rfl, by decide,
    by decide⟩

end StateStore

end PolygonArb

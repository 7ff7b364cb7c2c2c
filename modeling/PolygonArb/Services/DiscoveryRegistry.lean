import Mathlib.Data.Finset.Filter
import PolygonArb.Lib.IndexTable
import PolygonArb.Pipeline.SyncedMetas
import PolygonArb.Services.PoolMetaRow

/-!
# The registry of discovered pools

`DiscoveryState` of `services/state_refresh.rs`: the discovered pools with an index by pool key and one by
address, merged into by `maybe_discover` and pruned by `prune_dead_pools`.

The key index is exact: a key is registered once.  Addresses may repeat, and the address index is only right in
what it answers (`Registered`), which is what the arena relies on (`Registered.discoveryIndex`).  It is exact as
long as every address belongs to one key (`Exact.inverseIndex`); a pool whose address it has lost is neither
synced nor pruned.
-/

namespace PolygonArb

open IndexTable

/-- The watermarks of discovery. -/
structure DiscoveryCursor where
  lastBlock : ℕ
  lastBlockId : String
  lastUpdatedBlock : ℕ
  lastUpdatedId : String
  deriving DecidableEq

def DiscoveryCursor.init : DiscoveryCursor := ⟨0, "", 0, ""⟩

structure DiscoveryState where
  discovered : List PoolRecord
  poolKeyIndex : String → Option ℕ
  addressIndex : Address → Option ℕ
  discoveryCursor : DiscoveryCursor
  invalidFetchCount : Address → ℕ

/-- `MAX_INVALID_FETCHES`. -/
def maxInvalidFetches : ℕ := 6

namespace DiscoveryState

def init : DiscoveryState := ⟨[], fun _ => none, fun _ => none, .init, fun _ => 0⟩

variable (s : DiscoveryState)

/-! ## Operations -/

/-- `replace_discovered_pool`; the index is out of bounds when there is no such pool. -/
def replaceDiscoveredPool (idx : ℕ) (pool : PoolRecord) : Option (DiscoveryState × Option Address) :=
  s.discovered[idx]?.map fun old =>
    let index := if old.address = pool.address then s.addressIndex else Function.update s.addressIndex old.address none
    ({ s with
        discovered := s.discovered.set idx pool
        addressIndex := Function.update index pool.address (some idx) },
      if old.address = pool.address then none else some old.address)

def addDiscoveredPool (pool : PoolRecord) : DiscoveryState :=
  { s with
    discovered := s.discovered ++ [pool]
    poolKeyIndex := Function.update s.poolKeyIndex pool.poolKey (some s.discovered.length)
    addressIndex := Function.update s.addressIndex pool.address (some s.discovered.length) }

/-- One pool of a merge, and the address it has replaced. -/
def mergePool (pool : PoolRecord) : Option (DiscoveryState × Option Address) :=
  match s.poolKeyIndex pool.poolKey with
  | some idx => s.replaceDiscoveredPool idx pool
  | none => some (s.addDiscoveredPool pool, none)

/-- The merge of a batch; the cached states of the replaced addresses are dropped. -/
def mergePools : DiscoveryState → List PoolRecord → Option (DiscoveryState × List Address)
  | s, [] => some (s, [])
  | s, pool :: rest =>
      (s.mergePool pool).bind fun (s, replaced) =>
        (mergePools s rest).map fun (s, addresses) => (s, replaced.toList ++ addresses)

/-- `rebuild_discovery_indexes`. -/
def rebuildIndexes : DiscoveryState :=
  { s with
    poolKeyIndex := enumerate (s.discovered.map PoolRecord.poolKey)
    addressIndex := enumerate (s.discovered.map fun pool => pool.address) }

/-- The addresses that have been invalid too often, with the counts. -/
def countInvalid (invalid : Finset Address) : (Address → ℕ) × Finset Address :=
  let count := fun address => if address ∈ invalid then min (s.invalidFetchCount address + 1) (2 ^ 32 - 1) else 0
  (count, invalid.filter fun address => maxInvalidFetches ≤ count address)

/-- `prune_dead_pools`; `invalid` are the indexed addresses whose state is invalid past its retry. -/
def pruneDeadPools (invalid : Finset Address) : DiscoveryState :=
  let counted := s.countInvalid invalid
  if counted.2 = ∅ then { s with invalidFetchCount := counted.1 }
  else
    { rebuildIndexes { s with discovered := s.discovered.filter fun pool => pool.address ∉ counted.2 } with
      invalidFetchCount := fun address => if address ∈ counted.2 then 0 else counted.1 address }

/-- The pool registered under a key. -/
def lookup (key : String) : Option PoolRecord := (s.poolKeyIndex key).bind fun i => s.discovered[i]?

/-! ## The indexes -/

/-- What holds of the indexes. -/
structure Registered : Prop where
  keys : InverseIndex (s.discovered.map PoolRecord.poolKey) s.poolKeyIndex
  addresses : Points (s.discovered.map fun pool => pool.address) s.addressIndex

variable {s} {s' : DiscoveryState} {pool : PoolRecord} {idx : ℕ} {key : String}

lemma registered_init : init.Registered := ⟨inverseIndex_nil, points_nil⟩

/-- A key that is registered has its pool. -/
lemma Registered.getElem?_of_index (h : s.Registered) (hidx : s.poolKeyIndex key = some idx) :
    ∃ pool, s.discovered[idx]? = some pool ∧ pool.poolKey = key := by
  have hkey := (h.keys key idx).mp hidx
  rwa [List.getElem?_map, Option.map_eq_some_iff] at hkey

lemma Registered.lookup_eq_some (h : s.Registered) : s.lookup key = some pool ↔
    pool ∈ s.discovered ∧ pool.poolKey = key := by
  rw [lookup, Option.bind_eq_some_iff]
  constructor
  · rintro ⟨i, hi, hpool⟩
    obtain ⟨pool', hpool', hkey⟩ := h.getElem?_of_index hi
    rw [hpool, Option.some.injEq] at hpool'
    exact ⟨List.mem_of_getElem? hpool, hpool' ▸ hkey⟩
  · rintro ⟨hmem, rfl⟩
    obtain ⟨i, hi⟩ := List.mem_iff_getElem?.mp hmem
    refine ⟨i, (h.keys _ _).mpr ?_, hi⟩
    rw [List.getElem?_map, hi]
    rfl

/-- The address index is one the arena may read. -/
lemma Registered.discoveryIndex (h : s.Registered) :
    DiscoveryIndex (s.discovered.map PoolRecord.toDiscoveredPool) s.addressIndex := by
  intro address index pool hindex hpool
  have hplace := h.addresses address index hindex
  rw [List.getElem?_map] at hplace hpool
  obtain ⟨p, hp, rfl⟩ := Option.map_eq_some_iff.mp hpool
  rw [hp, Option.map_some, Option.some.injEq] at hplace
  exact hplace

/-! ## What a merge does -/

section Merge

/-- One pool is merged: it is registered under its key, and all else is as before. -/
structure Merged (s : DiscoveryState) (pool : PoolRecord) (s' : DiscoveryState) : Prop where
  registered : s'.Registered
  self : s'.lookup pool.poolKey = some pool
  other : ∀ key, key ≠ pool.poolKey → s'.lookup key = s.lookup key
  cursor : s'.discoveryCursor = s.discoveryCursor
  counts : s'.invalidFetchCount = s.invalidFetchCount

lemma merged_replace (h : s.Registered) (hidx : s.poolKeyIndex pool.poolKey = some idx) :
    ∃ s' replaced, s.replaceDiscoveredPool idx pool = some (s', replaced) ∧ Merged s pool s' := by
  obtain ⟨old, hold, hkey⟩ := h.getElem?_of_index hidx
  have hlt := (List.getElem?_eq_some_iff.mp hold).1
  have hkeys : (s.discovered.set idx pool).map PoolRecord.poolKey = s.discovered.map PoolRecord.poolKey := by
    rw [List.map_set]
    refine List.ext_getElem? ?_
    intro i
    rw [List.getElem?_set]
    split_ifs with hi hlong
    · subst hi
      rw [List.getElem?_map, hold, Option.map_some, hkey]
    · exact absurd (by simpa using hlt) hlong
    · rfl
  refine ⟨_, _, Option.map_eq_some_iff.mpr ⟨old, hold, rfl⟩, ⟨?_, ?_⟩, ?_, ?_, rfl, rfl⟩
  · show InverseIndex ((s.discovered.set idx pool).map PoolRecord.poolKey) s.poolKeyIndex
    rw [hkeys]
    exact h.keys
  · show Points ((s.discovered.set idx pool).map fun pool => pool.address) _
    rw [List.map_set]
    refine h.addresses.set ?_ pool.address
    rw [List.getElem?_map, hold]
    rfl
  · simp [lookup, hidx, hlt]
  · intro key hne
    simp only [lookup]
    cases hother : s.poolKeyIndex key with
    | none => rfl
    | some i =>
        have hi : idx ≠ i := by
          rintro rfl
          obtain ⟨old', hold', hkey'⟩ := h.getElem?_of_index hother
          rw [hold, Option.some.injEq] at hold'
          exact hne (by rw [← hkey', ← hold', hkey])
        simp [List.getElem?_set_ne hi]

lemma merged_add (h : s.Registered) (hidx : s.poolKeyIndex pool.poolKey = none) :
    Merged s pool (s.addDiscoveredPool pool) := by
  refine ⟨⟨?_, ?_⟩, ?_, ?_, rfl, rfl⟩
  · have hpush := h.keys.push hidx
    rw [List.length_map] at hpush
    simpa [addDiscoveredPool] using hpush
  · have hpush := h.addresses.push pool.address
    rw [List.length_map] at hpush
    simpa [addDiscoveredPool] using hpush
  · simp [lookup, addDiscoveredPool]
  · intro key hne
    simp only [lookup, addDiscoveredPool, Function.update_of_ne hne]
    cases hother : s.poolKeyIndex key with
    | none => rfl
    | some i =>
        obtain ⟨old, hold, -⟩ := h.getElem?_of_index hother
        have hlt := (List.getElem?_eq_some_iff.mp hold).1
        simp [List.getElem?_append_left hlt]

/-- A merge of one pool never fails. -/
lemma mergePool_spec (h : s.Registered) (pool : PoolRecord) :
    ∃ s' replaced, s.mergePool pool = some (s', replaced) ∧ Merged s pool s' := by
  rw [mergePool]
  cases hidx : s.poolKeyIndex pool.poolKey with
  | some idx => exact merged_replace h hidx
  | none => exact ⟨_, _, rfl, merged_add h hidx⟩

/-- The last pool of a batch with the key. -/
def lastOf (pools : List PoolRecord) (key : String) : Option PoolRecord :=
  pools.reverse.find? fun pool => pool.poolKey = key

/-- What a registry holds once a batch is merged. -/
def overlay (content : String → Option PoolRecord) (pools : List PoolRecord) (key : String) :
    Option PoolRecord :=
  (lastOf pools key).or (content key)

lemma lastOf_cons (pool : PoolRecord) (rest : List PoolRecord) (key : String) :
    lastOf (pool :: rest) key = (lastOf rest key).or (if pool.poolKey = key then some pool else none) := by
  rw [lastOf, List.reverse_cons, List.find?_append]
  simp [lastOf, List.find?_cons, List.find?_nil]
  split <;> simp_all

lemma overlay_cons {content content' : String → Option PoolRecord} (pool : PoolRecord)
    (rest : List PoolRecord) (hself : content' pool.poolKey = some pool)
    (hother : ∀ key, key ≠ pool.poolKey → content' key = content key) (key : String) :
    overlay content' rest key = overlay content (pool :: rest) key := by
  rw [overlay, overlay, lastOf_cons, Option.or_assoc]
  congr 1
  by_cases hkey : pool.poolKey = key
  · subst hkey
    simp [hself]
  · rw [if_neg hkey, Option.none_or, hother key (Ne.symm hkey)]

/-- A merge never fails; of pools with one key the last one stays. -/
lemma mergePools_spec (h : s.Registered) (pools : List PoolRecord) :
    ∃ s' replaced, s.mergePools pools = some (s', replaced) ∧ s'.Registered ∧
      (∀ key, s'.lookup key = overlay s.lookup pools key) ∧ s'.discoveryCursor = s.discoveryCursor ∧
      s'.invalidFetchCount = s.invalidFetchCount := by
  induction pools generalizing s with
  | nil =>
      refine ⟨s, [], rfl, h, ?_, rfl, rfl⟩
      intro key
      rfl
  | cons pool rest ih =>
      obtain ⟨s₁, replaced, hone, hmerged⟩ := mergePool_spec h pool
      obtain ⟨s', addresses, hrest, hregistered, hlookup, hcursor, hcounts⟩ := ih hmerged.registered
      refine ⟨s', replaced.toList ++ addresses, ?_, hregistered, ?_, hcursor.trans hmerged.cursor,
        hcounts.trans hmerged.counts⟩
      · simp [mergePools, hone, hrest]
      · intro key
        rw [hlookup key]
        exact overlay_cons pool rest hmerged.self hmerged.other key

end Merge

/-! ## What pruning does -/

/-- Pruning keeps the pools whose addresses are not dead, and no other. -/
lemma discovered_pruneDeadPools (s : DiscoveryState) (invalid : Finset Address) :
    (s.pruneDeadPools invalid).discovered =
      s.discovered.filter fun pool => pool.address ∉ (s.countInvalid invalid).2 := by
  simp only [pruneDeadPools]
  split_ifs with hnone
  · simp [hnone]
  · rfl

lemma Registered.prune (h : s.Registered) (invalid : Finset Address) : (s.pruneDeadPools invalid).Registered := by
  simp only [pruneDeadPools]
  split_ifs
  · exact ⟨h.keys, h.addresses⟩
  · refine ⟨inverseIndex_enumerate ?_, points_enumerate _⟩
    have hsub : (s.discovered.filter fun pool => pool.address ∉ (s.countInvalid invalid).2).Sublist s.discovered :=
      List.filter_sublist
    exact h.keys.nodup.sublist (hsub.map PoolRecord.poolKey)

/-- What is still registered is what was. -/
lemma Registered.lookup_prune (h : s.Registered) (invalid : Finset Address) (key : String) :
    (s.pruneDeadPools invalid).lookup key =
      (s.lookup key).filter fun pool => pool.address ∉ (s.countInvalid invalid).2 := by
  refine Option.ext ?_
  intro pool
  rw [(h.prune invalid).lookup_eq_some, Option.filter_eq_some_iff, h.lookup_eq_some, discovered_pruneDeadPools,
    List.mem_filter]
  constructor
  · rintro ⟨⟨hmem, hdead⟩, hkey⟩
    exact ⟨⟨hmem, hkey⟩, hdead⟩
  · rintro ⟨⟨hmem, hkey⟩, hdead⟩
    exact ⟨⟨hmem, hdead⟩, hkey⟩

/-! ## When the address index is exact -/

/-- Every address belongs to one key, and the address index knows all addresses. -/
structure Exact (owner : Address → String) (s : DiscoveryState) : Prop where
  owned : ∀ pool ∈ s.discovered, owner pool.address = pool.poolKey
  known : ∀ pool ∈ s.discovered, (s.addressIndex pool.address).isSome

section Exact

variable {owner : Address → String}

lemma exact_init : Exact owner init := ⟨by simp [init], by simp [init]⟩

lemma Exact.inverseIndex (h : Exact owner s) (hregistered : s.Registered) :
    InverseIndex (s.discovered.map fun pool => pool.address) s.addressIndex := by
  refine hregistered.addresses.inverseIndex ?_ ?_
  · have howned : (s.discovered.map fun pool => pool.address).map owner = s.discovered.map PoolRecord.poolKey := by
      rw [List.map_map]
      exact List.map_congr_left h.owned
    have hkeys : ((s.discovered.map fun pool => pool.address).map owner).Nodup := by
      rw [howned]
      exact hregistered.keys.nodup
    exact hkeys.of_map owner
  · intro address haddress
    obtain ⟨pool, hpool, rfl⟩ := List.mem_map.mp haddress
    exact h.known pool hpool

lemma Exact.add (h : Exact owner s) (howner : owner pool.address = pool.poolKey) :
    Exact owner (s.addDiscoveredPool pool) := by
  constructor
  · intro p hp
    rcases List.mem_append.mp hp with hold | hnew
    · exact h.owned p hold
    · rw [List.mem_singleton.mp hnew]
      exact howner
  · intro p hp
    simp only [addDiscoveredPool]
    by_cases haddress : p.address = pool.address
    · simp [haddress]
    · rw [Function.update_of_ne haddress]
      rcases List.mem_append.mp hp with hold | hnew
      · exact h.known p hold
      · exact absurd (by rw [List.mem_singleton.mp hnew]) haddress

/-- Only the pool of the key loses its address. -/
lemma Exact.replace (h : Exact owner s) (hregistered : s.Registered)
    (hidx : s.poolKeyIndex pool.poolKey = some idx) (howner : owner pool.address = pool.poolKey)
    {replaced : Option Address} (hrun : s.replaceDiscoveredPool idx pool = some (s', replaced)) : Exact owner s' := by
  obtain ⟨old, hold, heq⟩ := Option.map_eq_some_iff.mp hrun
  rw [Prod.mk.injEq] at heq
  obtain ⟨rfl, -⟩ := heq
  have hmem : ∀ p ∈ s.discovered.set idx pool, p ∈ s.discovered ∧ p.poolKey ≠ pool.poolKey ∨ p = pool := by
    intro p hp
    obtain ⟨i, hi⟩ := List.mem_iff_getElem?.mp hp
    rw [List.getElem?_set] at hi
    split_ifs at hi with hplace
    · exact .inr (Option.some.inj hi).symm
    · refine .inl ⟨List.mem_of_getElem? hi, ?_⟩
      intro hkey
      have hindex := (hregistered.keys p.poolKey i).mpr (by rw [List.getElem?_map, hi]; rfl)
      rw [hkey, hidx, Option.some.injEq] at hindex
      exact hplace hindex
  have hkey : old.poolKey = pool.poolKey := by
    obtain ⟨old', hold', hkey⟩ := hregistered.getElem?_of_index hidx
    rw [hold, Option.some.injEq] at hold'
    rw [hold', hkey]
  constructor
  · intro p hp
    rcases hmem p hp with ⟨hother, -⟩ | rfl
    · exact h.owned p hother
    · exact howner
  · intro p hp
    show (Function.update
      (if old.address = pool.address then s.addressIndex else Function.update s.addressIndex old.address none)
      pool.address (some idx) p.address).isSome = true
    by_cases haddress : p.address = pool.address
    · simp [haddress]
    · rw [Function.update_of_ne haddress]
      rcases hmem p hp with ⟨hother, hne⟩ | rfl
      · have hkeeps : p.address ≠ old.address := by
          intro hsame
          have hownerOld := h.owned old (List.mem_of_getElem? hold)
          rw [← hsame, h.owned p hother, hkey] at hownerOld
          exact hne hownerOld
        split_ifs
        · exact h.known p hother
        · rw [Function.update_of_ne hkeeps]
          exact h.known p hother
      · exact absurd rfl haddress

lemma Exact.mergePools (h : Exact owner s) (hregistered : s.Registered) {pools : List PoolRecord}
    (howner : ∀ pool ∈ pools, owner pool.address = pool.poolKey) {replaced : List Address}
    (hrun : s.mergePools pools = some (s', replaced)) : Exact owner s' := by
  induction pools generalizing s replaced with
  | nil =>
      rw [DiscoveryState.mergePools, Option.some.injEq, Prod.mk.injEq] at hrun
      rw [← hrun.1]
      exact h
  | cons pool rest ih =>
      obtain ⟨⟨s₁, replaced₁⟩, hone, hrun⟩ := Option.bind_eq_some_iff.mp hrun
      obtain ⟨⟨s₂, addresses⟩, hrest, heq⟩ := Option.map_eq_some_iff.mp hrun
      rw [Prod.mk.injEq] at heq
      obtain ⟨rfl, -⟩ := heq
      obtain ⟨s₁', replaced₁', hone', hmerged⟩ := mergePool_spec hregistered pool
      rw [hone, Option.some.injEq, Prod.mk.injEq] at hone'
      obtain ⟨rfl, rfl⟩ := hone'
      refine ih ?_ hmerged.registered (fun p hp => howner p (List.mem_cons_of_mem pool hp)) hrest
      have hself := howner pool List.mem_cons_self
      rw [mergePool] at hone
      cases hidx : s.poolKeyIndex pool.poolKey with
      | some idx =>
          rw [hidx] at hone
          exact h.replace hregistered hidx hself hone
      | none =>
          rw [hidx, Option.some.injEq, Prod.mk.injEq] at hone
          rw [← hone.1]
          exact h.add hself

lemma Exact.prune (h : Exact owner s) (invalid : Finset Address) : Exact owner (s.pruneDeadPools invalid) := by
  have hmem : ∀ p ∈ (s.pruneDeadPools invalid).discovered, p ∈ s.discovered := by
    intro p hp
    rw [discovered_pruneDeadPools] at hp
    exact List.mem_of_mem_filter hp
  refine ⟨fun p hp => h.owned p (hmem p hp), ?_⟩
  intro p hp
  simp only [pruneDeadPools] at hp ⊢
  split_ifs at hp ⊢
  · exact h.known p hp
  · exact isSome_enumerate (List.mem_map_of_mem hp)

end Exact

end DiscoveryState

end PolygonArb

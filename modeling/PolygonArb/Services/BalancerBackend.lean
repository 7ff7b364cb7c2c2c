import PolygonArb.Services.DiscoveryRegistry

/-!
# The Balancer backend

`apply_backend_pools` of `services/balancer_backend.rs`, the step of `maybe_discover` between reading and merging:
the pools of a Balancer vault that the backend calls non-tradable are dropped, and a missing pool id is filled in.
A backend that is not configured or does not answer lists no pools, which changes nothing (`applyBackendPools_nil`).

A pool keeps its key and its address, and what is last under a key before the step is, unless it is refused, last
under it after the step (`lastOf_applyBackendPools`).
-/

namespace PolygonArb

open DiscoveryState

structure BackendDynamicData where
  swapEnabled : Bool
  isInRecoveryMode : Bool

structure BackendPool where
  address : String
  id : String
  dynamicData : Option BackendDynamicData

/-- Without dynamic data a pool counts as tradable. -/
def poolTradable (dynamic : Option BackendDynamicData) : Bool :=
  dynamic.all fun d => d.swapEnabled && !d.isInRecoveryMode

/-- What an entry says, if its address and its id can be read. -/
def BackendPool.parsed (pool : BackendPool) : Option (Address × BitVec 256 × Bool) :=
  (parseHexAddress pool.address).bind fun address =>
    (parseHexBytes32 pool.id).map fun id => (address, id, poolTradable pool.dynamicData)

/-- The last entry for an address counts. -/
def byAddress (backend : List BackendPool) (address : Address) : Option (BitVec 256 × Bool) :=
  ((backend.filterMap BackendPool.parsed).reverse.find? fun entry => entry.1 = address).map Prod.snd

/-- A Balancer pool that the backend calls non-tradable. -/
def refuses (backend : List BackendPool) (pool : PoolRecord) : Bool :=
  pool.protocol = .balancerV2 && (byAddress backend pool.address).any fun entry => !entry.2

/-- A Balancer pool without an id gets the one of a tradable entry. -/
def enrich (backend : List BackendPool) (pool : PoolRecord) : PoolRecord :=
  if pool.protocol = .balancerV2 ∧ pool.poolId = none then
    match byAddress backend pool.address with
    | some (id, true) => { pool with poolId := some id, poolIdVerified := true }
    | _ => pool
  else pool

/-- `apply_backend_pools`. -/
def applyBackendPools (backend : List BackendPool) (pools : List PoolRecord) : List PoolRecord :=
  (pools.filter fun pool => !refuses backend pool).map (enrich backend)

section Backend

variable {backend : List BackendPool} {pools : List PoolRecord} {pool : PoolRecord} {key : String}

@[simp] lemma poolKey_enrich (backend : List BackendPool) (pool : PoolRecord) :
    (enrich backend pool).poolKey = pool.poolKey := by
  rw [enrich]
  split_ifs
  · split <;> rfl
  · rfl

@[simp] lemma address_enrich (backend : List BackendPool) (pool : PoolRecord) :
    (enrich backend pool).address = pool.address := by
  rw [enrich]
  split_ifs
  · split <;> rfl
  · rfl

/-- Only a Balancer pool changes, and it has an id afterwards. -/
lemma enrich_eq_or (backend : List BackendPool) (pool : PoolRecord) : enrich backend pool = pool ∨
    (enrich backend pool).protocol = .balancerV2 ∧ (enrich backend pool).poolId.isSome := by
  rw [enrich]
  split_ifs with hmissing
  · split
    · exact .inr ⟨hmissing.1, rfl⟩
    · exact .inl rfl
  · exact .inl rfl

lemma protocol_of_refuses (h : refuses backend pool = true) : pool.protocol = .balancerV2 := by
  rw [refuses, Bool.and_eq_true, decide_eq_true_eq] at h
  exact h.1

@[simp] lemma applyBackendPools_nil (pools : List PoolRecord) : applyBackendPools [] pools = pools := by
  have hkept : ∀ pool, refuses [] pool = false := fun pool => by simp [refuses, byAddress]
  have hsame : enrich [] = id := by
    funext pool
    simp [enrich, byAddress]
  simp [applyBackendPools, hkept, hsame]

lemma mem_applyBackendPools : pool ∈ applyBackendPools backend pools ↔
    ∃ found ∈ pools, refuses backend found = false ∧ enrich backend found = pool := by
  simp [applyBackendPools, and_assoc]

lemma find?_filter_of_keep {α : Type*} {keep p : α → Bool} {xs : List α} {x : α} (h : xs.find? p = some x)
    (hkeep : keep x = true) : (xs.filter keep).find? p = some x := by
  obtain ⟨hp, before, after, rfl, hbefore⟩ := List.find?_eq_some_iff_append.mp h
  rw [List.filter_append, List.filter_cons_of_pos hkeep, List.find?_append, List.find?_cons_of_pos hp]
  have hnone : (before.filter keep).find? p = none := by
    rw [List.find?_eq_none]
    intro y hy
    simpa using hbefore y (List.mem_filter.mp hy).1
  rw [hnone, Option.none_or]

/-- What is last under a key stays so, unless it is refused. -/
lemma lastOf_applyBackendPools (h : lastOf pools key = some pool) (hkept : refuses backend pool = false) :
    lastOf (applyBackendPools backend pools) key = some (enrich backend pool) := by
  rw [lastOf, applyBackendPools, ← List.map_reverse, ← List.filter_reverse, List.find?_map]
  have hfind : ((fun pool : PoolRecord => decide (pool.poolKey = key)) ∘ enrich backend) =
      fun pool : PoolRecord => decide (pool.poolKey = key) := by
    funext pool
    simp
  rw [hfind, find?_filter_of_keep h (by simp [hkept]), Option.map_some]

lemma lastOf_applyBackendPools_none (h : lastOf pools key = none) :
    lastOf (applyBackendPools backend pools) key = none := by
  rw [lastOf, List.find?_eq_none] at h ⊢
  intro pool hpool
  obtain ⟨found, hfound, -, rfl⟩ := mem_applyBackendPools.mp (List.mem_reverse.mp hpool)
  simpa using h found (List.mem_reverse.mpr hfound)

end Backend

end PolygonArb

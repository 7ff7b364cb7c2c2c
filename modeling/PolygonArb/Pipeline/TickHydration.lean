import PolygonArb.Pipeline.Arena
import PolygonArb.Pipeline.Multicall
import PolygonArb.Pipeline.TickBitmap

/-!
# Tick hydration

`pipeline/tick_fetch.rs`, what the hydration of V3 and of V4 pools share: the batches of calls and the spans of
the pools in them, the tick lists stored back into the arena, and the cooldown a pass leaves behind.

The order that an unstable sort leaves tied elements in is a parameter, and so is everything the node answers:
a `Multicall` is any function that has an entry for every call.
-/

namespace PolygonArb

open Word ByteFormat

/-! ## Batches -/

/-- A batch of calls: all fail together, or every call has an answer or none. -/
structure Multicall where
  run : List MulticallItem → Except String (List (Option (List Byte)))
  length_run : ∀ {items results}, run items = .ok results → results.length = items.length

/-- The two batches of a bitmap pass. -/
structure BitmapRpc where
  words : Multicall
  ticks : Multicall

/-- Where the calls of one pool stand in a batch. -/
structure Span (σ : Type) where
  info : σ
  start : ℕ
  stop : ℕ

/-- The spans of the requests, one behind the other. -/
def layOut {σ : Type} : List (σ × List MulticallItem) → ℕ → List (Span σ)
  | [], _ => []
  | (info, items) :: requests, start =>
      ⟨info, start, start + items.length⟩ :: layOut requests (start + items.length)

/-- All calls of the requests. -/
def batch {σ : Type} (requests : List (σ × List MulticallItem)) : List MulticallItem :=
  requests.flatMap Prod.snd

/-- The answer to a call of the span. -/
def Span.answer {σ : Type} (span : Span σ) (results : List (Option (List Byte))) (offset : ℕ) :
    Option (List Byte) := results[span.start + offset]?.join

/-- How an unstable sort takes up what it sorts: that decides the ties. -/
structure TieOrder where
  shuffle : {α : Type} → List α → List α
  perm : ∀ {α : Type} (xs : List α), (shuffle xs).Perm xs

/-- `sort_unstable_by_key(|entry| Reverse(liquidity))`. -/
def TieOrder.byLiquidity {α : Type} (order : TieOrder) (liquidity : α → ℕ) (xs : List α) : List α :=
  (order.shuffle xs).mergeSort fun a b => liquidity b ≤ liquidity a

section Layout

variable {σ : Type} {requests : List (σ × List MulticallItem)} {span : Span σ}

/-- The calls of a request stand where its span says. -/
def Span.Covers (span : Span σ) (items : List MulticallItem) (request : σ × List MulticallItem) : Prop :=
  span.info = request.1 ∧ span.stop = span.start + request.2.length ∧
    ∀ offset < request.2.length, items[span.start + offset]? = request.2[offset]?

lemma covers_layOut (requests : List (σ × List MulticallItem)) (ahead : List MulticallItem) :
    List.Forall₂ (fun span request => span.Covers (ahead ++ batch requests) request)
      (layOut requests ahead.length) requests := by
  induction requests generalizing ahead with
  | nil => exact List.Forall₂.nil
  | cons request requests ih =>
      rcases request with ⟨info, items⟩
      have hbatch : ahead ++ batch ((info, items) :: requests) = (ahead ++ items) ++ batch requests := by
        simp [batch]
      rw [layOut, hbatch]
      refine List.Forall₂.cons ⟨rfl, rfl, fun offset hoffset => ?_⟩ ?_
      · rw [List.append_assoc, List.getElem?_append_right (Nat.le_add_right _ _), Nat.add_sub_cancel_left,
          List.getElem?_append_left hoffset]
      · have hrest := ih (ahead ++ items)
        rwa [List.length_append] at hrest

/-- The spans of a batch are those of its requests, in order. -/
lemma covers_batch (requests : List (σ × List MulticallItem)) :
    List.Forall₂ (fun span request => span.Covers (batch requests) request) (layOut requests 0) requests :=
  covers_layOut requests []

lemma exists_of_forall₂ {α β : Type} {R : α → β → Prop} {xs : List α} {ys : List β}
    (h : List.Forall₂ R xs ys) : (∀ x ∈ xs, ∃ y ∈ ys, R x y) ∧ ∀ y ∈ ys, ∃ x ∈ xs, R x y := by
  induction h with
  | nil => simp
  | cons hhead _ ih =>
      refine ⟨?_, ?_⟩
      · rintro x (_ | ⟨_, hmem⟩)
        · exact ⟨_, List.mem_cons_self, hhead⟩
        · rcases ih.1 x hmem with ⟨y, hy, hrel⟩
          exact ⟨y, List.mem_cons_of_mem _ hy, hrel⟩
      · rintro y (_ | ⟨_, hmem⟩)
        · exact ⟨_, List.mem_cons_self, hhead⟩
        · rcases ih.2 y hmem with ⟨x, hx, hrel⟩
          exact ⟨x, List.mem_cons_of_mem _ hx, hrel⟩

lemma map_info_layOut (requests : List (σ × List MulticallItem)) (start : ℕ) :
    (layOut requests start).map Span.info = requests.map Prod.fst := by
  induction requests generalizing start with
  | nil => rfl
  | cons request requests ih => rw [layOut, List.map_cons, List.map_cons, ih]

end Layout

section Ties

variable {α : Type} (order : TieOrder) (liquidity : α → ℕ) (xs : List α)

lemma perm_byLiquidity : (order.byLiquidity liquidity xs).Perm xs :=
  (List.mergeSort_perm _ _).trans (order.perm xs)

end Ties

/-! ## The arena -/

/-- The two families with tick lists. -/
inductive ClFamily
  | v3
  | v4

namespace ClFamily

def state : ClFamily → PoolState → Option ConcentratedLiquidityPoolState
  | .v3, .v3 s => some s
  | .v4, .v4 s => some s
  | _, _ => none

def wrap : ClFamily → ConcentratedLiquidityPoolState → PoolState
  | .v3, s => .v3 s
  | .v4, s => .v4 s

@[simp] lemma state_wrap (family : ClFamily) (s : ConcentratedLiquidityPoolState) :
    family.state (family.wrap s) = some s := by
  cases family with
  | v3 => rfl
  | v4 => rfl

end ClFamily

section Store

variable (family : ClFamily)

/-- The state of a pool, if it is of the family. -/
def clPool (arena : StateArena) (index : PoolIndex) : Option ConcentratedLiquidityPoolState :=
  (arena.poolState index).bind family.state

/-- What `pool_state_mut` hands out. -/
def StateArena.slotState (arena : StateArena) (index : PoolIndex) : Option PoolState :=
  arena.inner.pools[index]?.bind fun _ => arena.poolState index

/-- `state.ticks = Arc::from(ticks)`, if the slot holds a pool of the family; answers how many were stored. -/
def storeTicks (arena : StateArena) (index : PoolIndex) (ticks : List V3Tick) : StateArena × ℕ :=
  match (arena.slotState index).bind family.state with
  | some s => (arena.poolStateMut index fun _ => family.wrap { s with ticks := ticks }, 1)
  | none => (arena.poolStateMut index id, 0)

/-- `grouped.entry(idx).or_default().push(tick)`.  The order of the groups is the hash map's; they are stored
into different slots. -/
def groupTicks (entries : List (PoolIndex × V3Tick)) : List (PoolIndex × List V3Tick) :=
  (entries.map Prod.fst).dedup.map fun index =>
    (index, entries.filterMap fun entry => if entry.1 = index then some entry.2 else none)

def storeGroups : List (PoolIndex × List V3Tick) → StateArena → StateArena × ℕ
  | [], arena => (arena, 0)
  | (index, ticks) :: groups, arena =>
      let (arena, stored) := storeTicks family arena index (finalizeClTicks ticks)
      let (arena, rest) := storeGroups groups arena
      (arena, stored + rest)

/-! ### Storing -/

variable {family} {arena : StateArena} {i j : PoolIndex} {ticks : List V3Tick}
  {edit : PoolState → PoolState}

lemma poolState_poolStateMut_ne (h : i ≠ j) :
    (arena.poolStateMut i edit).poolState j = arena.poolState j := by
  rw [StateArena.poolState, arena.getElem?_poolStateMut_ne h, StateArena.poolStateMut, List.getElem?_set_ne h]
  rfl

lemma poolState_poolStateMut_self :
    (arena.poolStateMut i edit).poolState i = (arena.slotState i).map edit := by
  have hnone : (arena.hotOverlay.set i none)[i]?.join = none := by
    rw [List.getElem?_set, if_pos rfl]
    split_ifs <;> rfl
  rw [StateArena.slotState, StateArena.poolState.eq_def (arena.poolStateMut i edit),
    arena.getElem?_poolStateMut_self, StateArena.poolStateMut, hnone]
  dsimp only
  cases arena.inner.pools[i]? with
  | none => rfl
  | some slot =>
      cases arena.poolState i with
      | none => rfl
      | some state => rfl

/-- The slot of a pool exists. -/
def HasSlot (arena : StateArena) (index : PoolIndex) : Prop := index < arena.inner.pools.length

lemma slotState_of_hasSlot (h : HasSlot arena i) : arena.slotState i = arena.poolState i := by
  rw [StateArena.slotState, List.getElem?_eq_getElem h]
  rfl

lemma hasSlot_storeTicks : HasSlot (storeTicks family arena i ticks).1 j ↔ HasSlot arena j := by
  rw [HasSlot, HasSlot, storeTicks]
  split
  · rw [StateArena.length_pools_poolStateMut]
  · rw [StateArena.length_pools_poolStateMut]

lemma clPool_storeTicks_ne (h : i ≠ j) :
    clPool family (storeTicks family arena i ticks).1 j = clPool family arena j := by
  rw [clPool, clPool, storeTicks]
  split
  · rw [poolState_poolStateMut_ne h]
  · rw [poolState_poolStateMut_ne h]

lemma clPool_storeTicks_self (h : HasSlot arena i) :
    clPool family (storeTicks family arena i ticks).1 i =
      (clPool family arena i).map fun s => { s with ticks := ticks } := by
  have hslot := slotState_of_hasSlot h
  rw [clPool, clPool, storeTicks, hslot]
  cases hstate : (arena.poolState i).bind family.state with
  | some s =>
      rcases Option.bind_eq_some_iff.mp hstate with ⟨state, hpool, -⟩
      dsimp only
      rw [poolState_poolStateMut_self, hslot, hpool]
      simp
  | none =>
      dsimp only
      rw [poolState_poolStateMut_self, hslot, Option.map_id, id, hstate]
      rfl

/-- One list is stored at most, none where no pool of the family is. -/
lemma stored_storeTicks_le : (storeTicks family arena i ticks).2 ≤ 1 := by
  rw [storeTicks]
  split
  · exact le_rfl
  · exact Nat.zero_le 1

lemma stored_storeGroups_le (groups : List (PoolIndex × List V3Tick)) (arena : StateArena) :
    (storeGroups family groups arena).2 ≤ groups.length := by
  induction groups generalizing arena with
  | nil => exact le_rfl
  | cons group groups ih =>
      have hone : (storeTicks family arena group.1 (finalizeClTicks group.2)).2 ≤ 1 := stored_storeTicks_le
      have hrest := ih (storeTicks family arena group.1 (finalizeClTicks group.2)).1
      simp only [storeGroups, List.length_cons]
      omega

lemma hasSlot_storeGroups (groups : List (PoolIndex × List V3Tick)) (arena : StateArena) :
    HasSlot (storeGroups family groups arena).1 j ↔ HasSlot arena j := by
  induction groups generalizing arena with
  | nil => rfl
  | cons group groups ih =>
      simp only [storeGroups]
      rw [ih, hasSlot_storeTicks]

lemma clPool_storeGroups_of_not_mem {groups : List (PoolIndex × List V3Tick)}
    (h : j ∉ groups.map Prod.fst) (arena : StateArena) :
    clPool family (storeGroups family groups arena).1 j = clPool family arena j := by
  induction groups generalizing arena with
  | nil => rfl
  | cons group groups ih =>
      rw [List.map_cons, List.mem_cons, not_or] at h
      simp only [storeGroups]
      rw [ih h.2, clPool_storeTicks_ne fun heq => h.1 heq.symm]

lemma clPool_storeGroups_of_mem {groups : List (PoolIndex × List V3Tick)}
    (hnodup : (groups.map Prod.fst).Nodup) (hmem : (j, ticks) ∈ groups) (hslot : HasSlot arena j) :
    clPool family (storeGroups family groups arena).1 j =
      (clPool family arena j).map fun s => { s with ticks := finalizeClTicks ticks } := by
  induction groups generalizing arena with
  | nil => cases hmem
  | cons group groups ih =>
      rw [List.map_cons, List.nodup_cons] at hnodup
      simp only [storeGroups]
      rcases List.mem_cons.mp hmem with rfl | htail
      · rw [clPool_storeGroups_of_not_mem hnodup.1, clPool_storeTicks_self hslot]
      · have hne : group.1 ≠ j := fun heq => hnodup.1 (heq ▸ List.mem_map_of_mem htail)
        rw [ih hnodup.2 htail (hasSlot_storeTicks.mpr hslot), clPool_storeTicks_ne hne]

/-- The entries of one pool. -/
def entriesOf (entries : List (PoolIndex × V3Tick)) (index : PoolIndex) : List V3Tick :=
  entries.filterMap fun entry => if entry.1 = index then some entry.2 else none

lemma keys_groupTicks (entries : List (PoolIndex × V3Tick)) :
    (groupTicks entries).map Prod.fst = (entries.map Prod.fst).dedup := by
  rw [groupTicks, List.map_map]
  exact List.map_id' _

lemma entriesOf_eq_nil {entries : List (PoolIndex × V3Tick)} :
    entriesOf entries j = [] ↔ j ∉ entries.map Prod.fst := by
  rw [entriesOf, List.filterMap_eq_nil_iff]
  constructor
  · intro h hmem
    rcases List.mem_map.mp hmem with ⟨entry, hentry, hkey⟩
    have hnone := h entry hentry
    rw [if_pos hkey] at hnone
    cases hnone
  · intro h entry hentry
    exact if_neg fun hkey => h (List.mem_map.mpr ⟨entry, hentry, hkey⟩)

/-- What a pool holds after its entries are stored: they replace the ticks if there are any. -/
theorem clPool_storeGroups (entries : List (PoolIndex × V3Tick)) (hslot : HasSlot arena j) :
    clPool family (storeGroups family (groupTicks entries) arena).1 j =
      if entriesOf entries j = [] then clPool family arena j
      else (clPool family arena j).map fun s =>
        { s with ticks := finalizeClTicks (entriesOf entries j) } := by
  split_ifs with hnone
  · refine clPool_storeGroups_of_not_mem ?_ arena
    rw [keys_groupTicks, List.mem_dedup]
    exact entriesOf_eq_nil.mp hnone
  · refine clPool_storeGroups_of_mem ?_ ?_ hslot
    · rw [keys_groupTicks]
      exact List.nodup_dedup _
    · rw [entriesOf_eq_nil, not_not] at hnone
      exact List.mem_map.mpr ⟨j, List.mem_dedup.mpr hnone, rfl⟩

end Store

/-! ## What a pass reports -/

structure TickEnrichment where
  loaded : ℕ
  rpcFailed : Bool
  emptyPools : ℕ
  incompletePools : ℕ
  algebraLoaded : ℕ
  algebraNoTickCalls : ℕ
  algebraDecodeRejects : ℕ

def TickEnrichment.default : TickEnrichment where
  loaded := 0
  rpcFailed := false
  emptyPools := 0
  incompletePools := 0
  algebraLoaded := 0
  algebraNoTickCalls := 0
  algebraDecodeRejects := 0

/-- Cap of the pools that are read again with a wider window (`MAX_WIDE_TICK_POOLS`). -/
def maxWideTickPools : ℕ := 24

/-- The cooldown that a pass arms, and for which pools. -/
inductive Cooldown (κ : Type)
  | none
  | empty (pools : List κ)
  | probeMiss (pools : List κ)
  | timeout (pools : List κ)

/-- The end of a pass: which cooldown the pools without ticks get. -/
def armCooldown {κ : Type} (stillTickless : List κ) (needsUrlFallback incomplete allowWiden : Bool)
    (full : κ → Bool) : Cooldown κ :=
  if !stillTickless.isEmpty && !needsUrlFallback then
    if allowWiden then .empty (stillTickless.filter full) else .probeMiss stillTickless
  else if !stillTickless.isEmpty && incomplete then .timeout stillTickless
  else .none

/-- The long cooldown is armed for pools that stay without ticks after a pass that ran well. -/
lemma armCooldown_eq_empty {κ : Type} {stillTickless : List κ} {needsUrlFallback incomplete allowWiden : Bool}
    {full : κ → Bool} {pool : κ} :
    (∃ pools, armCooldown stillTickless needsUrlFallback incomplete allowWiden full = .empty pools ∧
        pool ∈ pools) ↔
      pool ∈ stillTickless ∧ needsUrlFallback = false ∧ allowWiden = true ∧ full pool = true := by
  rw [armCooldown]
  constructor
  · rintro ⟨pools, hempty, hmem⟩
    split_ifs at hempty with hwell hwide hcut
    cases hempty
    rw [Bool.and_eq_true, Bool.not_eq_true', Bool.not_eq_true'] at hwell
    rcases List.mem_filter.mp hmem with ⟨hstill, hfull⟩
    exact ⟨hstill, hwell.2, hwide, hfull⟩
  · rintro ⟨hstill, hwell, hwide, hfull⟩
    have hsome : stillTickless.isEmpty = false := by
      cases stillTickless with
      | nil => cases hstill
      | cons a rest => rfl
    rw [hsome, hwell, hwide]
    exact ⟨_, rfl, List.mem_filter.mpr ⟨hstill, hfull⟩⟩

/-- What a pass leaves behind: `cleared` are the pools whose cooldowns it drops. -/
structure Hydration (κ : Type) where
  arena : StateArena
  report : TickEnrichment
  cleared : List κ
  cooldown : Cooldown κ

/-- The pass arms the long cooldown of a pool. -/
def Hydration.ArmsEmpty {κ : Type} (pass : Hydration κ) (pool : κ) : Prop :=
  ∃ pools, pass.cooldown = .empty pools ∧ pool ∈ pools

/-- The window of the second wave: `word_range.saturating_mul(3).clamp(24, 48)`. -/
def wideRange (wordRange : ℤ) : ℤ := max 24 (min (max (-2 ^ 15) (min (wordRange * 3) (2 ^ 15 - 1))) 48)

end PolygonArb

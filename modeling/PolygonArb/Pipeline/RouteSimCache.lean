import PolygonArb.Pipeline.HotOverlay
import PolygonArb.Pipeline.RouteTrace

/-!
# The route simulation cache

`RouteSimCache` of `pipeline/route_sim_cache.rs` memoizes simulations of a route under a digest of the
states the route sees: for each hop the revision of its hot overlay, or the snapshot's base revision
where it has none.  The digest is a parameter; `routeRevisionWrites` is what it is fed.

A simulation reads the arena through the token table and the states of its pools (`SameSight`).  So a
key is as good as it tells those states apart, and it does when every slot shows what its revision
stands for: the snapshot's own state without an overlay, the cache state merged with the snapshot's
ticks with one (`SlotsByRevision`).  Overlays and in-place edits keep that only if they are `Quiet`.
-/

namespace PolygonArb

open Word

/-! ## Keys -/

/-- One `Hasher` call of the route digest. -/
inductive RevisionWrite
  | usize (n : ℕ)
  | u32 (n : ℕ)
  | u8 (n : ℕ)
  | u64 (n : ℕ)
  deriving DecidableEq

namespace StateArena

/-- What stands for the state of a slot: its overlay's revision, tagged, or the base revision. -/
def slotRevision (arena : StateArena) (baseRevision : ℕ) (index : PoolIndex) : ℕ × ℕ :=
  match arena.hotOverlay[index]?.join, arena.hotRevisions[index]? with
  | some _, some revision => if revision ≠ 0 then (1, revision) else (0, baseRevision)
  | _, _ => (0, baseRevision)

/-- The writes behind `route_state_revision_with_base`. -/
def routeRevisionWrites (arena : StateArena) (edges : List Edge) (baseRevision : ℕ) :
    List RevisionWrite :=
  .usize edges.length :: edges.flatMap fun edge =>
    let slot := arena.slotRevision baseRevision edge.poolIndex
    [.u32 edge.poolIndex, .u8 slot.1, .u64 slot.2]

def routeStateRevisionWithBase {κ : Type} (fx : List RevisionWrite → κ) (arena : StateArena)
    (edges : List Edge) (baseRevision : ℕ) : κ :=
  fx (arena.routeRevisionWrites edges baseRevision)

/-- The writes of one route tell the revisions of its slots apart. -/
lemma slotRevision_eq_of_writes {a b : StateArena} {baseRevision : ℕ} :
    ∀ {edges : List Edge},
      a.routeRevisionWrites edges baseRevision = b.routeRevisionWrites edges baseRevision →
      ∀ edge ∈ edges, a.slotRevision baseRevision edge.poolIndex =
        b.slotRevision baseRevision edge.poolIndex := by
  intro edges h
  have htail := (List.cons.inj h).2
  clear h
  induction edges with
  | nil => intro edge hedge; exact absurd hedge (by simp)
  | cons first rest ih =>
      rw [List.flatMap_cons, List.flatMap_cons] at htail
      simp only [List.cons_append, List.nil_append, List.cons.injEq, true_and, RevisionWrite.u8.injEq,
        RevisionWrite.u64.injEq] at htail
      rcases htail with ⟨htag, hrevision, hrest⟩
      intro edge hedge
      rcases List.mem_cons.mp hedge with rfl | hedge
      · exact Prod.ext htag hrevision
      · exact ih hrest edge hedge

end StateArena

/-! ## What a simulation reads -/

/-- Two arenas a route cannot tell apart. -/
structure SameSight (edges : List Edge) (a b : StateArena) : Prop where
  tokens : a.inner.tokens = b.inner.tokens
  decimals : a.inner.tokenDecimals = b.inner.tokenDecimals
  states : ∀ edge ∈ edges, a.poolState edge.poolIndex = b.poolState edge.poolIndex

namespace SameSight

variable {edges : List Edge} {a b : StateArena}

lemma tokenAddress (h : SameSight edges a b) : a.tokenAddress = b.tokenAddress := by
  funext index
  rw [StateArena.tokenAddress, StateArena.tokenAddress, h.tokens]

lemma tail {edge : Edge} (h : SameSight (edge :: edges) a b) : SameSight edges a b :=
  ⟨h.tokens, h.decimals, fun e he => h.states e (List.mem_cons_of_mem edge he)⟩

lemma routeEdgesSimulatable (h : SameSight edges a b) :
    PolygonArb.routeEdgesSimulatable a edges = PolygonArb.routeEdgesSimulatable b edges := by
  simp only [PolygonArb.routeEdgesSimulatable, firstHopContinuityBreakInArena, hopContinuous,
    h.tokenAddress]

lemma walkHop {edge : Edge} (h : SameSight edges a b) (hedge : edge ∈ edges) (current cap : U256) :
    PolygonArb.walkHop a edge current cap = PolygonArb.walkHop b edge current cap := by
  simp only [PolygonArb.walkHop, realignMultiTokenEdge, h.states edge hedge, h.tokenAddress]

lemma walkHopsFrom {caps : ShallowCaps} :
    ∀ {edges : List Edge} (_ : SameSight edges a b) (i : ℕ) (w : RouteWalk),
      PolygonArb.walkHopsFrom a caps i edges w = PolygonArb.walkHopsFrom b caps i edges w := by
  intro edges
  induction edges with
  | nil => intro _ i w; rfl
  | cons edge rest ih =>
      intro h i w
      rw [PolygonArb.walkHopsFrom, PolygonArb.walkHopsFrom]
      simp only [h.walkHop List.mem_cons_self, ih h.tail]

lemma edgeTickless {edge : Edge} (h : SameSight edges a b) (hedge : edge ∈ edges) :
    PolygonArb.edgeTickless a edge = PolygonArb.edgeTickless b edge := by
  rw [PolygonArb.edgeTickless, PolygonArb.edgeTickless, h.states edge hedge]

lemma spotProbeForToken (h : SameSight edges a b) : a.spotProbeForToken = b.spotProbeForToken := by
  funext token
  rw [StateArena.spotProbeForToken, StateArena.spotProbeForToken, StateArena.tokenDecimals,
    StateArena.tokenDecimals, h.decimals]

lemma routeShallowCaps (h : SameSight edges a b) :
    PolygonArb.routeShallowCaps a edges = PolygonArb.routeShallowCaps b edges := by
  rw [PolygonArb.routeShallowCaps, PolygonArb.routeShallowCaps, routeShallowCapsWith,
    routeShallowCapsWith, h.spotProbeForToken]
  -- The loop runs over the hops of the route; only their tick state differs in the two bodies.
  have hmem : ∀ hop ∈ edges.zipIdx, hop.1 ∈ edges := by
    intro hop hhop
    exact List.fst_mem_of_mem_zipIdx hhop
  generalize noCaps = caps
  generalize edges.zipIdx = hops at hmem
  induction hops generalizing caps with
  | nil => rfl
  | cons hop rest ih =>
      cases hop with
      | mk edge i =>
          have hedge := h.edgeTickless (hmem (edge, i) List.mem_cons_self)
          rw [List.foldlM_cons, List.foldlM_cons]
          simp only [hedge]
          congr 1
          funext next
          exact ih next fun e he => hmem e (List.mem_cons_of_mem (edge, i) he)

/-- The simulation of a route is a function of what it sees. -/
theorem simulateRouteMinimal (h : SameSight edges a b) (amountIn : U256) :
    PolygonArb.simulateRouteMinimal a edges amountIn =
      PolygonArb.simulateRouteMinimal b edges amountIn := by
  have hwalk : walkRouteHops a edges amountIn none none = walkRouteHops b edges amountIn none none := by
    rw [walkRouteHops, walkRouteHops, resolveCaps, resolveCaps, h.routeShallowCaps]
    simp only [h.walkHopsFrom]
  rw [PolygonArb.simulateRouteMinimal, PolygonArb.simulateRouteMinimal, simulateRouteMinimalWithCaps,
    simulateRouteMinimalWithCaps, h.routeEdgesSimulatable, hwalk]

end SameSight

/-! ## Snapshots -/

/-- What happens to a snapshot arena between two publishes of its base. -/
inductive SnapshotOp
  | poolStateMut (index : PoolIndex) (edit : PoolState → PoolState)
  | applyHotCacheUnique (cache : StateCache) (addresses : List Address)
  | applyHotCache (cache : StateCache) (addresses : List Address)

def SnapshotOp.apply (arena : StateArena) : SnapshotOp → StateArena
  | .poolStateMut index edit => arena.poolStateMut index edit
  | .applyHotCacheUnique cache addresses => (arena.applyHotCacheUnique cache addresses).2
  | .applyHotCache cache addresses => (arena.applyHotCache cache addresses).2

section Revisions

-- The snapshot as it was published, and the state the cache hands a slot under each revision.
variable (base : ArenaInner) (handed : PoolIndex → ℕ → PoolState)

/-- The state of a slot in the snapshot. -/
def baseState (index : PoolIndex) : Option PoolState := base.pools[index]?.map PoolArc.state

/-- The state a revision of a slot stands for: the cache state, with the snapshot's ticks if it has
none. -/
def revisionState (index : PoolIndex) (revision : ℕ) : PoolState :=
  (preserveClTicksOnReplace (baseState base index) (.new (handed index revision))).state

/-- Every slot shows the state its revision stands for. -/
structure SlotsByRevision (arena : StateArena) : Prop where
  tokens : arena.inner.tokens = base.tokens
  decimals : arena.inner.tokenDecimals = base.tokenDecimals
  addresses : arena.inner.addressToPool = base.addressToPool
  slots : ∀ index, baseState arena.inner index = baseState base index
  revisions : arena.hotRevisions.length = arena.hotOverlay.length
  overlay : ∀ (index : PoolIndex) hot, arena.hotOverlay[index]?.join = some hot →
    ∃ revision, arena.hotRevisions[index]? = some revision ∧ revision ≠ 0 ∧
      hot.state = revisionState base handed index revision

/-- The edit leaves the pool with its state of the snapshot. -/
def QuietEdit (arena : StateArena) (index : PoolIndex) (edit : PoolState → PoolState) : Prop :=
  ∀ state, arena.poolState index = some state → baseState base index = some (edit state)

/-- What is laid over the slot has a revision, is the one state of that revision, and does not take
over ticks that the snapshot does not have. -/
def QuietOverlay (fresh : Address → Option (PoolArc × ℕ)) (arena : StateArena) (address : Address) :
    Prop :=
  ∀ index arc revision, arena.inner.addressToPool address = some index →
    fresh address = some (arc, revision) →
    revision ≠ 0 ∧ arc.state = handed index revision ∧
      (preserveClTicksOnReplace (arena.poolState index) arc).state =
        (preserveClTicksOnReplace (baseState base index) arc).state

/-- Each address of a refresh in turn. -/
def QuietOverlays (fresh : Address → Option (PoolArc × ℕ)) : List Address → StateArena → Prop
  | [], _ => True
  | address :: rest, arena =>
      QuietOverlay base handed fresh arena address ∧
        QuietOverlays fresh rest (arena.applyHotState fresh address)

/-- A refresh as a whole. -/
def QuietRefresh (arena : StateArena) (cache : StateCache) (addresses : List Address) : Prop :=
  QuietOverlays base handed (StateArena.freshStates (cache.getArcs addresses)) addresses
    arena.ensureHotStorage

def SnapshotOp.Quiet (arena : StateArena) : SnapshotOp → Prop
  | .poolStateMut index edit => QuietEdit base arena index edit
  | .applyHotCacheUnique cache addresses => QuietRefresh base handed arena cache addresses
  | .applyHotCache cache addresses =>
      QuietRefresh base handed arena cache (addresses.mergeSort fun a b => a ≤ b).eraseReps

end Revisions

namespace SlotsByRevision

variable {base : ArenaInner} {handed : PoolIndex → ℕ → PoolState} {arena : StateArena}

lemma start : SlotsByRevision base handed ⟨base, [], []⟩ :=
  ⟨rfl, rfl, rfl, fun _ => rfl, rfl, fun index hot h => absurd h (by simp)⟩

/-- A slot shows what its revision says. -/
lemma poolState_eq (h : SlotsByRevision base handed arena) (baseRevision : ℕ) (index : PoolIndex) :
    arena.poolState index =
      if (arena.slotRevision baseRevision index).1 = 1 then
        some (revisionState base handed index (arena.slotRevision baseRevision index).2)
      else baseState base index := by
  rw [StateArena.poolState, StateArena.slotRevision]
  cases hover : arena.hotOverlay[index]?.join with
  | none => exact h.slots index
  | some hot =>
      rcases h.overlay index hot hover with ⟨revision, hrevision, hne, hstate⟩
      rw [hrevision]
      simp only [ne_eq, hne, not_false_eq_true, if_true, hstate]

/-- Equal keys of one route mean equal sight. -/
lemma sameSight {arena' : StateArena} {baseRevision : ℕ} {edges : List Edge}
    (h : SlotsByRevision base handed arena) (h' : SlotsByRevision base handed arena')
    (hkey : arena.routeRevisionWrites edges baseRevision =
      arena'.routeRevisionWrites edges baseRevision) :
    SameSight edges arena arena' := by
  refine ⟨h.tokens.trans h'.tokens.symm, h.decimals.trans h'.decimals.symm, ?_⟩
  intro edge hedge
  rw [h.poolState_eq baseRevision, h'.poolState_eq baseRevision,
    StateArena.slotRevision_eq_of_writes hkey edge hedge]

/-- Laying nothing, or the state of a revision, over a slot. -/
lemma set (h : SlotsByRevision base handed arena) (slot : ℕ) (laid : Option PoolArc) (revision : ℕ)
    (hlaid : ∀ arc, laid = some arc →
      revision ≠ 0 ∧ arc.state = revisionState base handed slot revision) :
    SlotsByRevision base handed
      ⟨arena.inner, arena.hotOverlay.set slot laid, arena.hotRevisions.set slot revision⟩ := by
  refine ⟨h.tokens, h.decimals, h.addresses, h.slots, ?_, ?_⟩
  · simpa using h.revisions
  · intro index hot hhot
    by_cases hslot : slot = index
    · subst hslot
      by_cases hlen : slot < arena.hotOverlay.length
      · rw [List.getElem?_set_self hlen, Option.join_some] at hhot
        refine ⟨revision, List.getElem?_set_self ?_, hlaid hot hhot⟩
        rw [h.revisions]
        exact hlen
      · rw [List.getElem?_eq_none (by simp; omega)] at hhot
        exact absurd hhot (by simp)
    · dsimp only at hhot ⊢
      rw [List.getElem?_set_ne hslot] at hhot ⊢
      exact h.overlay index hot hhot

/-- A merge keeps to the ticks it is given and to the state that comes in. -/
lemma state_preserve (prior : Option PoolState) {arc arc' : PoolArc} (h : arc.state = arc'.state) :
    (preserveClTicksOnReplace prior arc).state = (preserveClTicksOnReplace prior arc').state := by
  unfold preserveClTicksOnReplace
  rw [← h]
  split
  · split
    · rfl
    · exact h
  · split
    · rfl
    · exact h
  · exact h

lemma applyHotState {fresh : Address → Option (PoolArc × ℕ)} {address : Address}
    (h : SlotsByRevision base handed arena)
    (hquiet : QuietOverlay base handed fresh arena address) :
    SlotsByRevision base handed (arena.applyHotState fresh address) := by
  rw [StateArena.applyHotState]
  split
  · exact h
  · rename_i slot hslot
    split
    · exact h.set slot none 0 fun arc harc => absurd harc (by simp)
    · rename_i arc revision hfresh
      dsimp only
      split
      · exact h
      · rcases hquiet slot arc revision hslot hfresh with ⟨hne, hstate, hticks⟩
        refine h.set slot _ revision ?_
        intro merged hmerged
        rw [← Option.some.inj hmerged, hticks]
        exact ⟨hne, state_preserve _ hstate⟩

lemma applyHotStates {fresh : Address → Option (PoolArc × ℕ)} :
    ∀ {addresses : List Address} {arena : StateArena}, SlotsByRevision base handed arena →
      QuietOverlays base handed fresh addresses arena →
      SlotsByRevision base handed
        (addresses.foldl (fun a address => a.applyHotState fresh address) arena) := by
  intro addresses
  induction addresses with
  | nil => intro arena h _; exact h
  | cons address rest ih =>
      intro arena h hquiet
      rw [List.foldl_cons]
      exact ih (h.applyHotState hquiet.1) hquiet.2

lemma getElem?_resizeTo {α : Type} (xs : List α) (n : ℕ) (fill : α) (i : ℕ) :
    (StateArena.resizeTo xs n fill)[i]? = if i < n then some (xs[i]?.getD fill) else none := by
  rw [StateArena.resizeTo]
  rcases Nat.lt_or_ge i (xs.take n).length with hi | hi
  · rw [List.length_take] at hi
    rw [List.getElem?_append_left (by rw [List.length_take]; exact hi),
      List.getElem?_take_of_lt (by omega), if_pos (by omega), List.getElem?_eq_getElem (by omega)]
    rfl
  · rw [List.getElem?_append_right hi, List.getElem?_replicate]
    rw [List.length_take] at hi ⊢
    by_cases hn : i < n
    · rw [if_pos hn, if_pos (by omega), List.getElem?_eq_none (by omega)]
      rfl
    · rw [if_neg hn, if_neg (by omega)]

lemma length_resizeTo {α : Type} (xs : List α) (n : ℕ) (fill : α) :
    (StateArena.resizeTo xs n fill).length = n := by
  rw [StateArena.resizeTo, List.length_append, List.length_take, List.length_replicate]
  omega

lemma ensureHotStorage (h : SlotsByRevision base handed arena) :
    SlotsByRevision base handed arena.ensureHotStorage := by
  rw [StateArena.ensureHotStorage]
  split
  · exact h
  · refine ⟨h.tokens, h.decimals, h.addresses, h.slots, ?_, ?_⟩
    · rw [length_resizeTo, length_resizeTo]
    · intro index hot hhot
      dsimp only at hhot ⊢
      rw [getElem?_resizeTo] at hhot ⊢
      split at hhot
      · rename_i hlt
        rw [Option.join_some] at hhot
        have hold : arena.hotOverlay[index]?.join = some hot := by
          cases hslot : arena.hotOverlay[index]? with
          | none => rw [hslot] at hhot; exact absurd hhot (by simp)
          | some laid => rw [hslot] at hhot; exact hhot
        rcases h.overlay index hot hold with ⟨revision, hrevision, hstate⟩
        exact ⟨revision, by rw [if_pos hlt, hrevision]; rfl, hstate⟩
      · exact absurd hhot (by simp)

lemma applyHotCacheUnique {cache : StateCache} {addresses : List Address}
    (h : SlotsByRevision base handed arena)
    (hquiet : QuietRefresh base handed arena cache addresses) :
    SlotsByRevision base handed (arena.applyHotCacheUnique cache addresses).2 := by
  rw [StateArena.applyHotCacheUnique]
  split
  · exact h
  · exact h.ensureHotStorage.applyHotStates hquiet

lemma poolStateMut {index : PoolIndex} {edit : PoolState → PoolState}
    (h : SlotsByRevision base handed arena) (hquiet : QuietEdit base arena index edit) :
    SlotsByRevision base handed (arena.poolStateMut index edit) := by
  refine ⟨h.tokens, h.decimals, h.addresses, ?_, ?_, ?_⟩
  · intro j
    by_cases hj : index = j
    · subst hj
      have hbase := h.slots index
      rw [baseState, StateArena.getElem?_poolStateMut_self]
      cases hslot : arena.inner.pools[index]? with
      | none =>
          rw [baseState, hslot] at hbase
          exact hbase
      | some slot =>
          rw [Option.bind_some]
          rcases arena.exists_poolState hslot with ⟨state, hstate⟩
          rw [hstate, hquiet state hstate]
          rfl
    · rw [baseState, arena.getElem?_poolStateMut_ne hj]
      exact h.slots j
  · rw [StateArena.poolStateMut, List.length_set]
    exact h.revisions
  · intro j hot hhot
    rw [StateArena.poolStateMut] at hhot ⊢
    dsimp only at hhot ⊢
    by_cases hj : index = j
    · subst hj
      rw [List.getElem?_set] at hhot
      simp only [if_true] at hhot
      split at hhot
      · exact absurd hhot (by simp)
      · exact absurd hhot (by simp)
    · rw [List.getElem?_set_ne hj] at hhot
      exact h.overlay j hot hhot

lemma step {op : SnapshotOp} (h : SlotsByRevision base handed arena)
    (hquiet : op.Quiet base handed arena) : SlotsByRevision base handed (op.apply arena) := by
  cases op with
  | poolStateMut index edit => exact h.poolStateMut hquiet
  | applyHotCacheUnique cache addresses => exact h.applyHotCacheUnique hquiet
  | applyHotCache cache addresses => exact h.applyHotCacheUnique hquiet

end SlotsByRevision

/-! ## The cache -/

structure RouteSimKey (κ : Type) where
  routeStateRevision : κ
  routeEdges : List Edge
  amount : U256
  deriving DecidableEq

def routeSimCacheShards : ℕ := 16

def routeSimCacheShardCapacity : ℕ := 16384 / routeSimCacheShards

/-- `RouteSimCache`: one map per shard. -/
structure RouteSimCache (κ : Type) where
  entries : Fin routeSimCacheShards → List (RouteSimKey κ × MinimalSimResult)

namespace RouteSimCache

variable {κ : Type} [DecidableEq κ]

def new : RouteSimCache κ := ⟨fun _ => []⟩

def shardIndex (routeFp : BitVec 64) : Fin routeSimCacheShards :=
  ⟨routeFp.toNat % routeSimCacheShards, Nat.mod_lt _ (by decide)⟩

def get (cache : RouteSimCache κ) (routeStateRevision : κ) (routeFp : BitVec 64)
    (routeEdges : List Edge) (amount : U256) : Option MinimalSimResult :=
  ((cache.entries (shardIndex routeFp)).find? fun row =>
    row.1 = ⟨routeStateRevision, routeEdges, amount⟩).map Prod.snd

/-- What a full shard keeps: the entries of the revision at hand, or half of them.  `order` is the
order in which the map hands out its keys. -/
def makeRoom (order : List (RouteSimKey κ × MinimalSimResult) → List (RouteSimKey κ))
    (routeStateRevision : κ) (rows : List (RouteSimKey κ × MinimalSimResult)) :
    List (RouteSimKey κ × MinimalSimResult) :=
  if routeSimCacheShardCapacity ≤ rows.length then
    let retained := rows.filter fun row => row.1.routeStateRevision = routeStateRevision
    if routeSimCacheShardCapacity ≤ retained.length then
      let victims := (order retained).take (retained.length - routeSimCacheShardCapacity / 2)
      retained.filter fun row => row.1 ∉ victims
    else retained
  else rows

def insert (cache : RouteSimCache κ)
    (order : List (RouteSimKey κ × MinimalSimResult) → List (RouteSimKey κ)) (routeStateRevision : κ)
    (routeFp : BitVec 64) (routeEdges : List Edge) (amount : U256) (sim : MinimalSimResult) :
    RouteSimCache κ :=
  let key : RouteSimKey κ := ⟨routeStateRevision, routeEdges, amount⟩
  let rows := makeRoom order routeStateRevision (cache.entries (shardIndex routeFp))
  ⟨Function.update cache.entries (shardIndex routeFp)
    ((key, sim) :: rows.filter fun row => row.1 ≠ key)⟩

lemma mem_of_get {cache : RouteSimCache κ} {routeStateRevision : κ} {routeFp : BitVec 64}
    {routeEdges : List Edge} {amount : U256} {sim : MinimalSimResult}
    (h : cache.get routeStateRevision routeFp routeEdges amount = some sim) :
    (⟨routeStateRevision, routeEdges, amount⟩, sim) ∈ cache.entries (shardIndex routeFp) := by
  rcases Option.map_eq_some_iff.mp h with ⟨row, hfind, rfl⟩
  have hkey : row.1 = ⟨routeStateRevision, routeEdges, amount⟩ := by
    simpa using List.find?_some hfind
  rw [← hkey]
  exact List.mem_of_find?_eq_some hfind

lemma mem_of_mem_makeRoom
    {order : List (RouteSimKey κ × MinimalSimResult) → List (RouteSimKey κ)} {routeStateRevision : κ}
    {rows : List (RouteSimKey κ × MinimalSimResult)} {row : RouteSimKey κ × MinimalSimResult}
    (h : row ∈ makeRoom order routeStateRevision rows) : row ∈ rows := by
  rw [makeRoom] at h
  split at h
  · dsimp only at h
    split at h
    · exact List.mem_of_mem_filter (List.mem_of_mem_filter h)
    · exact List.mem_of_mem_filter h
  · exact h

/-- An insertion adds one entry and may drop others. -/
lemma mem_insert {cache : RouteSimCache κ}
    {order : List (RouteSimKey κ × MinimalSimResult) → List (RouteSimKey κ)} {routeStateRevision : κ}
    {routeFp : BitVec 64} {routeEdges : List Edge} {amount : U256} {sim : MinimalSimResult}
    {shard : Fin routeSimCacheShards} {row : RouteSimKey κ × MinimalSimResult}
    (h : row ∈ (cache.insert order routeStateRevision routeFp routeEdges amount sim).entries shard) :
    row = (⟨routeStateRevision, routeEdges, amount⟩, sim) ∨ row ∈ cache.entries shard := by
  rw [insert] at h
  by_cases hshard : shard = shardIndex routeFp
  · subst hshard
    dsimp only at h
    rw [Function.update_self] at h
    rcases List.mem_cons.mp h with hnew | hold
    · exact .inl hnew
    · exact .inr (mem_of_mem_makeRoom (List.mem_of_mem_filter hold))
  · dsimp only at h
    rw [Function.update_of_ne hshard] at h
    exact .inr h

end RouteSimCache

/-! ## Runs -/

section Runs

variable {κ : Type} [DecidableEq κ] (fx : List RevisionWrite → κ) (baseRevision : ℕ)

/-- A snapshot arena and the cache its evaluations share. -/
structure SimSnapshot (κ : Type) where
  arena : StateArena
  cache : RouteSimCache κ

/-- The key of a route in the arena as it stands. -/
def SimSnapshot.key (s : SimSnapshot κ) (edges : List Edge) : κ :=
  s.arena.routeStateRevisionWithBase fx edges baseRevision

/-- An amount of a route that the cache does not know is simulated and memoized. -/
def SimSnapshot.memoize (s : SimSnapshot κ)
    (order : List (RouteSimKey κ × MinimalSimResult) → List (RouteSimKey κ)) (routeFp : BitVec 64)
    (edges : List Edge) (amount : U256) : SimSnapshot κ :=
  match s.cache.get (s.key fx baseRevision edges) routeFp edges amount with
  | some _ => s
  | none =>
      match simulateRouteMinimal s.arena edges amount with
      | some (some sim) =>
          { s with
            cache := s.cache.insert order (s.key fx baseRevision edges) routeFp edges amount sim }
      | _ => s

/-- The states of a run from the published snapshot whose arena steps meet `ok`. -/
inductive SimReachable (ok : StateArena → SnapshotOp → Prop) (base : ArenaInner) :
    SimSnapshot κ → Prop
  | start : SimReachable ok base ⟨⟨base, [], []⟩, .new⟩
  | op {s : SimSnapshot κ} {op : SnapshotOp} (h : SimReachable ok base s) (hok : ok s.arena op) :
      SimReachable ok base { s with arena := op.apply s.arena }
  | memoize {s : SimSnapshot κ} (h : SimReachable ok base s)
      (order : List (RouteSimKey κ × MinimalSimResult) → List (RouteSimKey κ)) (routeFp : BitVec 64)
      (edges : List Edge) (amount : U256) :
      SimReachable ok base (s.memoize fx baseRevision order routeFp edges amount)

/-- The arena shows states by revision, and every memo was made by such an arena. -/
structure SimSnapshot.Inv (base : ArenaInner) (handed : PoolIndex → ℕ → PoolState)
    (s : SimSnapshot κ) : Prop where
  arena : SlotsByRevision base handed s.arena
  memos : ∀ shard, ∀ row ∈ s.cache.entries shard, ∃ made, SlotsByRevision base handed made ∧
    row.1.routeStateRevision = made.routeStateRevisionWithBase fx row.1.routeEdges baseRevision ∧
    simulateRouteMinimal made row.1.routeEdges row.1.amount = some (some row.2)

variable {fx baseRevision}

lemma SimReachable.inv {base : ArenaInner} {handed : PoolIndex → ℕ → PoolState} {s : SimSnapshot κ}
    (h : SimReachable fx baseRevision (fun a op => op.Quiet base handed a) base s) :
    s.Inv fx baseRevision base handed := by
  induction h with
  | start => exact ⟨.start, fun shard row hrow => absurd hrow (by simp [RouteSimCache.new])⟩
  | op _ hok ih => exact ⟨ih.arena.step hok, ih.memos⟩
  | @memoize s _ order routeFp edges amount ih =>
      rw [SimSnapshot.memoize]
      split
      · exact ih
      · split
        · rename_i sim hsim
          refine ⟨ih.arena, ?_⟩
          intro shard row hrow
          rcases RouteSimCache.mem_insert hrow with rfl | hold
          · exact ⟨s.arena, ih.arena, rfl, hsim⟩
          · exact ih.memos shard row hold
        · exact ih

/-- If all overlays and edits are quiet, equal keys of a route mean equal simulations, at any two
moments, and what the cache answers is what the current arena would give. -/
theorem routeSimKey_sound {κ : Type} [DecidableEq κ] (fx : List RevisionWrite → κ)
    (hfx : Function.Injective fx) (baseRevision : ℕ) (base : ArenaInner)
    (handed : PoolIndex → ℕ → PoolState) (s t : SimSnapshot κ)
    (hs : SimReachable fx baseRevision (fun a op => op.Quiet base handed a) base s)
    (ht : SimReachable fx baseRevision (fun a op => op.Quiet base handed a) base t) :
    (∀ edges, s.key fx baseRevision edges = t.key fx baseRevision edges → ∀ amount,
        simulateRouteMinimal s.arena edges amount = simulateRouteMinimal t.arena edges amount) ∧
      ∀ routeFp edges amount sim,
        t.cache.get (t.key fx baseRevision edges) routeFp edges amount = some sim →
        simulateRouteMinimal t.arena edges amount = some (some sim) := by
  constructor
  · intro edges hkey amount
    exact (hs.inv.arena.sameSight ht.inv.arena (hfx hkey)).simulateRouteMinimal amount
  · intro routeFp edges amount sim hget
    rcases ht.inv.memos _ _ (RouteSimCache.mem_of_get hget) with ⟨made, hmade, hkey, hsim⟩
    rw [(ht.inv.arena.sameSight hmade (hfx hkey)).simulateRouteMinimal amount]
    exact hsim

end Runs

/-! ### One pool -/

/-- The pool is laid over with a state of revision one and a quote is memoized: it is the quote. -/
theorem routeSimKey_sound_memo :
    ∃ (t : SimSnapshot (List RevisionWrite)) (sim : MinimalSimResult),
      t.cache.get (t.key id 7 [pairEdge .uniswapV2 0 1]) 0 [pairEdge .uniswapV2 0 1] 1000#256 =
          some sim ∧
        simulateRouteMinimal t.arena [pairEdge .uniswapV2 0 1] 1000#256 = some (some sim) := by
  have hquiet : (SnapshotOp.applyHotCacheUnique (pairCache ⟨none, fundedV2⟩ 1) [1#160]).Quiet
      (pairArena fundedV2).inner (fun _ _ => fundedV2) ⟨(pairArena fundedV2).inner, [], []⟩ := by
    refine ⟨?_, trivial⟩
    intro index arc revision hindex hfresh
    have hslot : index = 0 := (Option.some.inj hindex).symm
    have hrow : (⟨none, fundedV2⟩, 1) = (arc, revision) := Option.some.inj hfresh
    rw [← (Prod.mk.inj hrow).1, ← (Prod.mk.inj hrow).2, hslot]
    exact ⟨by decide, rfl, rfl⟩
  have hlaid := @SimReachable.op _ _ id 7
    (fun a op => op.Quiet (pairArena fundedV2).inner (fun _ _ => fundedV2) a)
    (pairArena fundedV2).inner _ (.applyHotCacheUnique (pairCache ⟨none, fundedV2⟩ 1) [1#160])
    .start hquiet
  have hreach := hlaid.memoize (fun _ => []) 0 [pairEdge .uniswapV2 0 1] 1000#256
  have hget : ((SimSnapshot.memoize id 7
      ⟨(SnapshotOp.applyHotCacheUnique (pairCache ⟨none, fundedV2⟩ 1) [1#160]).apply
        ⟨(pairArena fundedV2).inner, [], []⟩, .new⟩ (fun _ => []) 0 [pairEdge .uniswapV2 0 1]
      1000#256).cache.get (SimSnapshot.key id 7 (SimSnapshot.memoize id 7
      ⟨(SnapshotOp.applyHotCacheUnique (pairCache ⟨none, fundedV2⟩ 1) [1#160]).apply
        ⟨(pairArena fundedV2).inner, [], []⟩, .new⟩ (fun _ => []) 0 [pairEdge .uniswapV2 0 1]
      1000#256) [pairEdge .uniswapV2 0 1]) 0 [pairEdge .uniswapV2 0 1] 1000#256).isSome = true := by
    decide
  rcases Option.isSome_iff_exists.mp hget with ⟨sim, hsim⟩
  exact ⟨_, sim, hsim, (routeSimKey_sound id Function.injective_id 7 _ _ _ _ hreach hreach).2 0 _ _ sim
    hsim⟩

/-- The ticks of a pool without an overlay are fetched: the key stays, the quote does not. -/
theorem routeSimKey_stale_ticks :
    ¬ ∀ (baseRevision : ℕ) (base : ArenaInner) (s t : SimSnapshot (List RevisionWrite)),
      SimReachable id baseRevision (fun _ _ => True) base s →
      SimReachable id baseRevision (fun _ _ => True) base t →
      ∀ edges, s.key id baseRevision edges = t.key id baseRevision edges → ∀ amount,
        simulateRouteMinimal s.arena edges amount = simulateRouteMinimal t.arena edges amount := by
  intro h
  have hsame := h 7 (pairArena (.v3 (poolAtPriceOne 0 []))).inner _ _ .start
    (@SimReachable.op _ _ id 7 (fun _ _ => True) _ _ (.poolStateMut 0 fun _ =>
      .v3 (poolAtPriceOne 0 [⟨-60, 500000000000, 500000000000⟩, ⟨60, 500000000000, -500000000000⟩]))
      .start trivial) [pairEdge .uniswapV3 0 1] (by decide) 5000000000#256
  exact absurd hsame (by decide)

end PolygonArb

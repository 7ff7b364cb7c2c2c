import PolygonArb.Pipeline.SyncedMetas

/-!
# The hot overlay and pool families

The overlay refresh copies cache states over arena slots.  It refuses a state of another family than
the one it finds, so a pool whose row fits its slot stays in the family of that row.  The one state it
takes over from outside the family is `Invalid`, which other services write for pools they could not
decode; `HandsInvalid` says when a refresh does.

* `ArenaView` — an arena, the rows of its last build, and which slots were handed `Invalid` since.
* `inFamily_applyHotStates` — what one refresh keeps of one slot.
* `poolState_of_handsInvalid` — a slot that is handed `Invalid` turns invalid.
* `hotOverlay_family` — both over whole runs of builds and refreshes.
-/

namespace PolygonArb

open Word IndexTable

/-- The unexpired state of a pool and its revision. -/
def StateCache.liveArc (cache : StateCache) (address : Address) : Option (PoolArc × ℕ) :=
  (cache.entries.find? (·.address = address)).bind fun entry =>
    if entry.live then some (entry.state, entry.revision) else none

namespace StateArena

variable {arena : StateArena}

lemma freshStates_append (rows : List (Address × PoolArc × ℕ)) (row : Address × PoolArc × ℕ) :
    freshStates (rows ++ [row]) = Function.update (freshStates rows) row.1 (some row.2) := by
  rw [freshStates, List.foldl_append]
  rfl

/-- The refresh looks up exactly the addresses it is given. -/
lemma freshStates_getArcs (cache : StateCache) (addresses : List Address) (address : Address) :
    freshStates (cache.getArcs addresses) address =
      if address ∈ addresses then cache.liveArc address else none := by
  induction addresses using List.reverseRecOn with
  | nil => rfl
  | append_singleton rest last ih =>
      have hlast : cache.getArcs (rest ++ [last]) =
          cache.getArcs rest ++ ((cache.liveArc last).map fun arc => (last, arc)).toList := by
        rw [StateCache.getArcs, List.filterMap_append, ← StateCache.getArcs, StateCache.liveArc]
        congr 1
        rw [List.filterMap_cons, List.filterMap_nil]
        cases cache.entries.find? (·.address = last) with
        | none => rfl
        | some entry =>
            cases hentry : entry.live with
            | false => simp [hentry]
            | true => simp [hentry]
      rw [hlast]
      cases hlive : cache.liveArc last with
      | none =>
          rw [Option.map_none, Option.toList_none, List.append_nil, ih]
          by_cases hmem : address ∈ rest
          · rw [if_pos hmem, if_pos (List.mem_append_left _ hmem)]
          · rw [if_neg hmem]
            by_cases heq : address = last
            · rw [if_pos (by simp [heq]), heq, hlive]
            · rw [if_neg (by simp [hmem, heq])]
      | some arc =>
          rw [Option.map_some, Option.toList_some, freshStates_append]
          by_cases heq : address = last
          · rw [heq, Function.update_self, if_pos (by simp), hlive]
          · rw [Function.update_of_ne heq, ih]
            by_cases hmem : address ∈ rest
            · rw [if_pos hmem, if_pos (List.mem_append_left _ hmem)]
            · rw [if_neg hmem, if_neg (by simp [hmem, heq])]

/-! ## One slot through a refresh -/

/-- The slot's own state is of the family, and so is what is seen there. -/
structure InFamily (arena : StateArena) (protocol : ProtocolType) (index : PoolIndex)
    (entry : PoolArc) : Prop where
  slot : arena.inner.pools[index]? = some entry
  own : protocolMatchesPoolState protocol entry.state = true
  seen : ∀ state, arena.poolState index = some state →
    protocolMatchesPoolState protocol state = true

lemma ne_invalid_of_matches {protocol : ProtocolType} {state : PoolState}
    (h : protocolMatchesPoolState protocol state = true) : state ≠ .invalid := by
  rintro rfl
  exact absurd h (by cases protocol <;> decide)

/-- A valid state that is compatible with one of the family is one of the family. -/
lemma matches_of_compatible {protocol : ProtocolType} {prior incoming : PoolState}
    (hprior : protocolMatchesPoolState protocol prior = true) (hincoming : incoming ≠ .invalid)
    (h : poolStateFamilyCompatible prior incoming = true) :
    protocolMatchesPoolState protocol incoming = true := by
  have hvalid := ne_invalid_of_matches hprior
  have htag : prior.familyTag = incoming.familyTag := by
    cases prior <;> cases incoming <;> simp_all [poolStateFamilyCompatible]
  rw [← matches_of_familyTag htag]
  exact hprior

/-- Laying a state of the family over any slot, or nothing, keeps the family. -/
lemma InFamily.set {protocol : ProtocolType} {index : PoolIndex} {entry : PoolArc}
    (h : arena.InFamily protocol index entry) (slot : ℕ) (laid : Option PoolArc)
    (revisions : List ℕ)
    (hlaid : slot = index → ∀ arc, laid = some arc →
      protocolMatchesPoolState protocol arc.state = true) :
    InFamily { arena with hotOverlay := arena.hotOverlay.set slot laid, hotRevisions := revisions }
      protocol index entry := by
  refine ⟨h.slot, h.own, ?_⟩
  intro state hstate
  by_cases hslot : slot = index
  · subst hslot
    rw [poolState] at hstate
    dsimp only at hstate
    by_cases hlen : slot < arena.hotOverlay.length
    · rw [List.getElem?_set_self hlen] at hstate
      cases laid with
      | none =>
          rw [Option.join_some, h.slot] at hstate
          rw [← Option.some.inj hstate]
          exact h.own
      | some arc =>
          rw [← Option.some.inj hstate]
          exact hlaid rfl arc rfl
    · rw [List.set_eq_of_length_le (by omega)] at hstate
      exact h.seen state hstate
  · refine h.seen state ?_
    rw [poolState] at hstate ⊢
    dsimp only at hstate
    rwa [List.getElem?_set_ne hslot] at hstate

lemma inFamily_applyHotState {protocol : ProtocolType} {index : PoolIndex} {entry : PoolArc}
    {fresh : Address → Option (PoolArc × ℕ)} {address : Address}
    (h : arena.InFamily protocol index entry)
    (hvalid : arena.inner.addressToPool address = some index → ∀ arc revision,
      fresh address = some (arc, revision) → arc.state ≠ .invalid) :
    (arena.applyHotState fresh address).InFamily protocol index entry := by
  rw [applyHotState]
  split
  · exact h
  · rename_i slot hslot
    split
    · exact h.set slot none _ (fun _ arc harc => absurd harc (by simp))
    · rename_i arc revision hfresh
      dsimp only
      split
      · exact h
      · rename_i hcompatible
        refine h.set slot _ _ ?_
        rintro rfl merged hmerged
        rw [← Option.some.inj hmerged, matches_of_familyTag (familyTag_preserve _ _)]
        have hentry : ∃ prior, arena.poolState slot = some prior := by
          rw [poolState, h.slot]
          split
          · exact ⟨_, rfl⟩
          · exact ⟨_, rfl⟩
        rcases hentry with ⟨prior, hprior⟩
        rw [hprior] at hcompatible
        exact matches_of_compatible (h.seen prior hprior) (hvalid hslot arc revision hfresh)
          (by simpa using hcompatible)

lemma inFamily_applyHotStates {protocol : ProtocolType} {index : PoolIndex} {entry : PoolArc}
    {fresh : Address → Option (PoolArc × ℕ)} (addresses : List Address) :
    ∀ arena : StateArena, arena.InFamily protocol index entry →
      (∀ address ∈ addresses, arena.inner.addressToPool address = some index → ∀ arc revision,
        fresh address = some (arc, revision) → arc.state ≠ .invalid) →
      (addresses.foldl (fun a address => a.applyHotState fresh address) arena).InFamily protocol
        index entry := by
  induction addresses with
  | nil => intro arena h _; exact h
  | cons address rest ih =>
      intro arena h hvalid
      rw [List.foldl_cons]
      refine ih _ (inFamily_applyHotState h (hvalid address List.mem_cons_self)) ?_
      intro a ha
      rw [inner_applyHotState]
      exact hvalid a (List.mem_cons_of_mem address ha)

/-- The refresh is handed an invalid state for the pool in the slot. -/
def HandsInvalid (arena : StateArena) (cache : StateCache) (addresses : List Address)
    (index : PoolIndex) : Prop :=
  ∃ address ∈ addresses, arena.inner.addressToPool address = some index ∧
    ∃ arc revision, cache.liveArc address = some (arc, revision) ∧ arc.state = .invalid

/-- Growing the overlay to the number of slots shows nothing new. -/
lemma poolState_ensureHotStorage {heap : ℕ → PoolState} (hok : SlotsOk heap arena)
    (index : PoolIndex) : arena.ensureHotStorage.poolState index = arena.poolState index := by
  rw [ensureHotStorage]
  split
  · rfl
  · rw [poolState, poolState]
    have hlen := hok.overlay
    have hjoin : (resizeTo arena.hotOverlay arena.inner.pools.length none)[index]?.join =
        arena.hotOverlay[index]?.join := by
      rw [resizeTo, List.take_of_length_le hlen]
      by_cases hindex : index < arena.hotOverlay.length
      · rw [List.getElem?_append_left hindex]
      · have hge : arena.hotOverlay.length ≤ index := Nat.le_of_not_lt hindex
        rw [List.getElem?_append_right hge, List.getElem?_eq_none hge, List.getElem?_replicate]
        split <;> rfl
    rw [hjoin]

lemma length_ensureHotStorage {heap : ℕ → PoolState} (hok : SlotsOk heap arena) :
    arena.ensureHotStorage.hotOverlay.length = arena.inner.pools.length := by
  rw [ensureHotStorage]
  split
  · assumption
  · have hlen := hok.overlay
    rw [resizeTo, List.length_append, List.length_take, List.length_replicate]
    omega

lemma length_applyHotState (fresh : Address → Option (PoolArc × ℕ)) (address : Address) :
    (arena.applyHotState fresh address).hotOverlay.length = arena.hotOverlay.length := by
  rw [applyHotState]
  split
  · rfl
  · split
    · exact List.length_set
    · dsimp only
      split
      · rfl
      · exact List.length_set

lemma length_applyHotStates (fresh : Address → Option (PoolArc × ℕ)) (addresses : List Address) :
    ∀ arena : StateArena,
      (addresses.foldl (fun a address => a.applyHotState fresh address) arena).hotOverlay.length =
        arena.hotOverlay.length := by
  induction addresses with
  | nil => intro arena; rfl
  | cons address rest ih =>
      intro arena
      rw [List.foldl_cons, ih, length_applyHotState]

lemma slotsOk_applyHotCacheUnique {heap : ℕ → PoolState} (hok : SlotsOk heap arena)
    (cache : StateCache) (addresses : List Address) :
    SlotsOk heap (arena.applyHotCacheUnique cache addresses).2 := by
  refine ⟨by rw [inner_applyHotCacheUnique]; exact hok.arcs, ?_⟩
  rw [inner_applyHotCacheUnique, applyHotCacheUnique]
  split
  · exact hok.overlay
  · dsimp only
    rw [length_applyHotStates, length_ensureHotStorage hok]

/-- One refresh keeps a slot in its family unless it is handed an invalid state for it. -/
lemma inFamily_applyHotCacheUnique {heap : ℕ → PoolState} {protocol : ProtocolType}
    {index : PoolIndex} {entry : PoolArc} {cache : StateCache} {addresses : List Address}
    (hok : SlotsOk heap arena) (h : arena.InFamily protocol index entry)
    (hvalid : ¬ arena.HandsInvalid cache addresses index) :
    (arena.applyHotCacheUnique cache addresses).2.InFamily protocol index entry := by
  rw [applyHotCacheUnique]
  split
  · exact h
  · have hgrown : arena.ensureHotStorage.InFamily protocol index entry :=
      ⟨by rw [inner_ensureHotStorage]; exact h.slot, h.own,
        fun state hstate => h.seen state (by rwa [poolState_ensureHotStorage hok] at hstate)⟩
    refine inFamily_applyHotStates addresses _ hgrown ?_
    intro address haddress hslot arc revision hfresh hinvalid
    rw [freshStates_getArcs, if_pos haddress] at hfresh
    rw [inner_ensureHotStorage] at hslot
    exact hvalid ⟨address, haddress, hslot, arc, revision, hfresh, hinvalid⟩

/-! ## A slot that is handed an invalid state -/

/-- The address of the slot lays an invalid state over it. -/
lemma poolState_applyHotState_self {fresh : Address → Option (PoolArc × ℕ)} {address : Address}
    {index : PoolIndex} {arc : PoolArc} {revision : ℕ}
    (hslot : arena.inner.addressToPool address = some index)
    (hlen : index < arena.hotOverlay.length) (hfresh : fresh address = some (arc, revision))
    (hinvalid : arc.state = .invalid) :
    (arena.applyHotState fresh address).poolState index = some .invalid := by
  have hcompatible : (arena.poolState index).any
      (fun p => !poolStateFamilyCompatible p arc.state) = false := by
    cases arena.poolState index with
    | none => rfl
    | some prior => cases prior <;> simp [hinvalid, poolStateFamilyCompatible]
  have hmerged : (preserveClTicksOnReplace (arena.poolState index) arc).state = .invalid := by
    have htag := familyTag_preserve (arena.poolState index) arc
    rw [hinvalid] at htag
    exact not_not.mp fun hne => (ne_invalid_iff_of_familyTag htag).mp hne rfl
  rw [applyHotState, hslot]
  dsimp only
  rw [hfresh]
  dsimp only
  rw [hcompatible, if_neg Bool.false_ne_true, poolState]
  dsimp only
  rw [List.getElem?_set_self hlen]
  exact congrArg some hmerged

lemma poolState_applyHotState_ne {fresh : Address → Option (PoolArc × ℕ)} {address : Address}
    {index : PoolIndex} (hslot : arena.inner.addressToPool address ≠ some index) :
    (arena.applyHotState fresh address).poolState index = arena.poolState index := by
  have hset : ∀ (slot : ℕ) (laid : Option PoolArc) (revisions : List ℕ), slot ≠ index →
      poolState ⟨arena.inner, arena.hotOverlay.set slot laid, revisions⟩ index =
        arena.poolState index := by
    intro slot laid revisions hne
    rw [poolState, poolState]
    dsimp only
    rw [List.getElem?_set_ne hne]
  rw [applyHotState]
  split
  · rfl
  · rename_i slot hsome
    have hne : slot ≠ index := fun heq => hslot (heq ▸ hsome)
    split
    · exact hset slot none _ hne
    · dsimp only
      split
      · rfl
      · exact hset slot _ _ hne

lemma poolState_of_handsInvalid {heap : ℕ → PoolState} {cache : StateCache}
    {addresses : List Address} {index : PoolIndex} (hok : SlotsOk heap arena)
    (htables : arena.inner.TablesOk) (h : arena.HandsInvalid cache addresses index) :
    (arena.applyHotCacheUnique cache addresses).2.poolState index = some .invalid := by
  rcases h with ⟨address, haddress, hslot, arc, revision, hlive, hinvalid⟩
  have hfresh : freshStates (cache.getArcs addresses) address = some (arc, revision) := by
    rw [freshStates_getArcs, if_pos haddress, hlive]
  have hlen : index < arena.ensureHotStorage.hotOverlay.length := by
    rw [length_ensureHotStorage hok, htables.pools]
    exact htables.pool.lt_length hslot
  -- From the address of the slot on the invalid state stays; no other address names the slot.
  have hfold : ∀ (rest : List Address) (a : StateArena), a.inner = arena.inner →
      index < a.hotOverlay.length → address ∈ rest ∨ a.poolState index = some .invalid →
      (rest.foldl (fun a b => a.applyHotState (freshStates (cache.getArcs addresses)) b) a).poolState
        index = some .invalid := by
    intro rest
    induction rest with
    | nil =>
        rintro a - - (hmem | hdone)
        · exact absurd hmem (by simp)
        · exact hdone
    | cons next rest ih =>
        intro a hinner hlen hor
        rw [List.foldl_cons]
        refine ih _ ((inner_applyHotState a _ _).trans hinner)
          (by rw [length_applyHotState]; exact hlen) ?_
        by_cases hnext : next = address
        · subst hnext
          exact .inr (poolState_applyHotState_self (hinner ▸ hslot) hlen hfresh hinvalid)
        · rcases hor with hmem | hdone
          · exact .inl ((List.mem_cons.mp hmem).resolve_left (Ne.symm hnext))
          · refine .inr ?_
            rw [poolState_applyHotState_ne]
            · exact hdone
            · intro hsame
              rw [hinner] at hsame
              have hnextKey := (htables.pool next index).mp hsame
              have hkey := (htables.pool address index).mp hslot
              exact hnext (Option.some.inj (hnextKey.symm.trans hkey))
  rw [applyHotCacheUnique, if_neg (by
    rw [List.isEmpty_iff]
    rintro rfl
    exact absurd haddress (by simp))]
  exact hfold addresses _ (inner_ensureHotStorage arena) hlen (.inl haddress)

end StateArena

/-! ## Runs of builds and refreshes -/

/-- An arena with the rows of its last build.  `struck` is kept for the statements only: the slots a
refresh was handed an invalid state for since that build. -/
structure ArenaView where
  arena : StateArena
  metas : List PoolMeta
  struck : PoolIndex → Prop

namespace ArenaView

variable (view : ArenaView)

def applyHotCacheUnique (cache : StateCache) (addresses : List Address) : ArenaView where
  arena := (view.arena.applyHotCacheUnique cache addresses).2
  metas := view.metas
  struck index := view.struck index ∨ view.arena.HandsInvalid cache addresses index

def applyHotCache (cache : StateCache) (addresses : List Address) : ArenaView where
  arena := (view.arena.applyHotCache cache addresses).2
  metas := view.metas
  struck index := view.struck index ∨ view.arena.HandsInvalid cache addresses index

end ArenaView

/-- What the callers of a build promise: a cache of shared states, an index that points at rows of its
addresses, and indices for all that is to be registered. -/
structure BuildOk (heap : ℕ → PoolState) (arena : StateArena) (cache : StateCache)
    (pools : List DiscoveredPool) (addressIndex : Address → Option ℕ) : Prop where
  sound : cache.Sound heap
  index : DiscoveryIndex pools addressIndex
  room : arena.SyncRoom (cache.tradableByDiscoveryIndex addressIndex) pools addressIndex

/-- Builds, refreshes and copies in any order; every one of them reads the cache as it stands then. -/
inductive ViewReachable (fx : FxHasher) (heap : ℕ → PoolState) : ArenaView → Prop
  | default : ViewReachable fx heap ⟨.default fx, [], fun _ => False⟩
  | build {view : ArenaView} {cache : StateCache} {pools : List DiscoveredPool}
      {addressIndex : Address → Option ℕ} {hints : DecimalHints} {freezeAppend : Bool}
      {report : ArenaSyncReport} {next : StateArena} (h : ViewReachable fx heap view)
      (hok : BuildOk heap view.arena cache pools addressIndex)
      (hsync : view.arena.syncFromDiscoveryGated fx cache pools addressIndex hints freezeAppend =
        some (report, next)) :
      ViewReachable fx heap ⟨next, report.metas, fun _ => False⟩
  | applyHotCacheUnique {view : ArenaView} (h : ViewReachable fx heap view) (cache : StateCache)
      (addresses : List Address) : ViewReachable fx heap (view.applyHotCacheUnique cache addresses)
  | applyHotCache {view : ArenaView} (h : ViewReachable fx heap view) (cache : StateCache)
      (addresses : List Address) : ViewReachable fx heap (view.applyHotCache cache addresses)
  | clone {view : ArenaView} (h : ViewReachable fx heap view) :
      ViewReachable fx heap { view with arena := view.arena.clone }

/-- The tables are inverse to each other, the slots are sound, and a row whose slot was not struck
sees a state of its family there. -/
structure ArenaView.Inv (heap : ℕ → PoolState) (view : ArenaView) : Prop where
  tables : view.arena.inner.TablesOk
  slots : SlotsOk heap view.arena
  family : ∀ row ∈ view.metas, ∀ entry, view.arena.inner.pools[row.poolIndex]? = some entry →
    entry.state ≠ .invalid → ¬ view.struck row.poolIndex →
    view.arena.InFamily row.protocol row.poolIndex entry

namespace ArenaView

variable {heap : ℕ → PoolState} {view : ArenaView}

lemma Inv.overlay (h : view.Inv heap) (cache : StateCache) (addresses : List Address)
    {struck : PoolIndex → Prop} (hstruck : ∀ index, ¬ struck index →
      ¬ view.struck index ∧ ¬ view.arena.HandsInvalid cache addresses index) :
    Inv heap ⟨(view.arena.applyHotCacheUnique cache addresses).2, view.metas, struck⟩ := by
  refine ⟨?_, StateArena.slotsOk_applyHotCacheUnique h.slots cache addresses, ?_⟩
  · rw [StateArena.inner_applyHotCacheUnique]
    exact h.tables
  · intro row hrow entry hentry hvalid hfree
    rw [StateArena.inner_applyHotCacheUnique] at hentry
    rcases hstruck _ hfree with ⟨hbefore, hnow⟩
    exact StateArena.inFamily_applyHotCacheUnique h.slots
      (h.family row hrow entry hentry hvalid hbefore) hnow

lemma mem_of_mem_eraseReps {address : Address} {addresses : List Address}
    (h : address ∈ addresses.eraseReps) : address ∈ addresses := by
  have hloop : ∀ (rest : List Address) (last : Address) (acc : List Address),
      address ∈ List.eraseRepsBy.loop (· == ·) last rest acc →
        address ∈ acc ∨ address = last ∨ address ∈ rest := by
    intro rest
    induction rest with
    | nil =>
        intro last acc hmem
        simpa [List.eraseRepsBy.loop, or_comm] using hmem
    | cons next rest ih =>
        intro last acc hmem
        rw [List.eraseRepsBy.loop] at hmem
        split at hmem
        · rcases ih last acc hmem with hacc | hlast | hrest
          · exact .inl hacc
          · exact .inr (.inl hlast)
          · exact .inr (.inr (List.mem_cons_of_mem next hrest))
        · rcases ih next (last :: acc) hmem with hacc | rfl | hrest
          · rcases List.mem_cons.mp hacc with rfl | hacc
            · exact .inr (.inl rfl)
            · exact .inl hacc
          · exact .inr (.inr List.mem_cons_self)
          · exact .inr (.inr (List.mem_cons_of_mem next hrest))
  cases addresses with
  | nil => exact h
  | cons first rest =>
      rcases hloop rest first [] h with hnil | rfl | hrest
      · exact absurd hnil (by simp)
      · exact List.mem_cons_self
      · exact List.mem_cons_of_mem first hrest

/-- The sorted list without repetitions hands over nothing that the given one does not. -/
lemma handsInvalid_of_sorted {arena : StateArena} {cache : StateCache} {addresses : List Address}
    {index : PoolIndex}
    (h : arena.HandsInvalid cache (addresses.mergeSort fun a b => a ≤ b).eraseReps index) :
    arena.HandsInvalid cache addresses index := by
  rcases h with ⟨address, haddress, hslot, hlive⟩
  exact ⟨address, List.mem_mergeSort.mp (mem_of_mem_eraseReps haddress), hslot, hlive⟩

end ArenaView

lemma ViewReachable.inv {fx : FxHasher} {heap : ℕ → PoolState} {view : ArenaView}
    (h : ViewReachable fx heap view) : view.Inv heap := by
  induction h with
  | default =>
      refine ⟨ArenaInner.tablesOk_empty.refresh fx, ⟨?_, le_rfl⟩, ?_⟩
      · intro entry hentry
        exact absurd hentry (by simp [StateArena.default, ArenaInner.refreshFingerprint, ArenaInner.empty])
      · intro row hrow
        exact absurd hrow (by simp)
  | @build view cache pools addressIndex hints freezeAppend report next _ hok hsync ih =>
      have hrows : ∀ row ∈ cache.tradableByDiscoveryIndex addressIndex, RowOk heap pools row :=
        fun row hrow => rowOk_tradable hok.sound hok.index hrow
      rcases StateArena.fits_syncTradable fx view.arena hsync ih.slots ih.tables hrows
        (nodup_tradable hok.sound) hok.room.2 with ⟨hslots, hmetas, -⟩
      refine ⟨StateArena.tablesOk_syncTradable fx view.arena hsync hok.room ih.tables, hslots, ?_⟩
      intro row hrow entry hentry hvalid _
      have hfits := hmetas row hrow
      rcases hfits.slot with ⟨slot, hslot, hmatch⟩
      have heq : slot = entry := Option.some.inj (hslot.symm.trans hentry)
      rw [heq] at hmatch
      refine ⟨hentry, hmatch hvalid, ?_⟩
      intro state hstate
      rw [StateArena.poolState] at hstate
      dsimp only at hstate hentry
      rw [hfits.bare, hentry] at hstate
      rw [← Option.some.inj hstate]
      exact hmatch hvalid
  | applyHotCacheUnique _ cache addresses ih =>
      exact ih.overlay cache addresses fun index hnot => not_or.mp hnot
  | applyHotCache _ cache addresses ih =>
      refine ih.overlay cache (addresses.mergeSort fun a b => a ≤ b).eraseReps ?_
      intro index hnot
      rcases not_or.mp hnot with ⟨hbefore, hnow⟩
      exact ⟨hbefore, fun hsorted => hnow (ArenaView.handsInvalid_of_sorted hsorted)⟩
  | @clone view _ ih =>
      refine ⟨ih.tables, ⟨ih.slots.arcs, Nat.zero_le _⟩, ?_⟩
      intro row hrow entry hentry hvalid hfree
      have hold := ih.family row hrow entry hentry hvalid hfree
      refine ⟨hold.slot, hold.own, ?_⟩
      intro state hstate
      rw [StateArena.poolState] at hstate
      have hentry' : view.arena.inner.pools[row.poolIndex]? = some entry := hentry
      simp only [StateArena.clone, List.getElem?_nil, Option.join_none, hentry'] at hstate
      rw [← Option.some.inj hstate]
      exact hold.own

/-- After any run of builds and refreshes the state of a tradable pool is of the family its row
names, unless a refresh since the build was handed an invalid state for it; and a refresh that is
handed one makes the pool invalid. -/
theorem hotOverlay_family (fx : FxHasher) (heap : ℕ → PoolState) (view : ArenaView)
    (h : ViewReachable fx heap view) :
    (∀ row ∈ view.metas, ∀ entry, view.arena.inner.pools[row.poolIndex]? = some entry →
      entry.state.isTradable = true → ¬ view.struck row.poolIndex →
      ∃ state, view.arena.poolState row.poolIndex = some state ∧
        protocolMatchesPoolState row.protocol state = true) ∧
    ∀ cache addresses index, view.arena.HandsInvalid cache addresses index →
      (view.applyHotCacheUnique cache addresses).arena.poolState index = some .invalid := by
  constructor
  · intro row hrow entry hentry htradable hfree
    have hvalid : entry.state ≠ .invalid := by
      intro hinvalid
      rw [hinvalid] at htradable
      exact absurd htradable (by decide)
    have hfamily := h.inv.family row hrow entry hentry hvalid hfree
    cases hstate : view.arena.poolState row.poolIndex with
    | none =>
        rw [StateArena.poolState, hentry] at hstate
        split at hstate <;> exact absurd hstate (by simp)
    | some state => exact ⟨state, rfl, hfamily.seen state hstate⟩
  · intro cache addresses index hhands
    exact StateArena.poolState_of_handsInvalid h.inv.slots h.inv.tables hhands

/-! ### One pool, built and refreshed -/

/-- The allocations of the runs below. -/
def pairHeap : ℕ → PoolState := fun cell => if cell = 5 then fundedV2 else .invalid

/-- The cache with one row for the pool at address 1. -/
def pairCache (state : PoolArc) (revision : ℕ) : StateCache :=
  ⟨[⟨1#160, state, revision, true⟩], revision⟩

/-- The discovery index of the one pool. -/
def pairIndex : Address → Option ℕ := fun address => if address = 1#160 then some 0 else none

lemma buildOk_pair :
    BuildOk pairHeap (.default mixHash) (pairCache ⟨some 5, fundedV2⟩ 1) [discoveredPair .uniswapV2]
      pairIndex := by
  refine ⟨⟨by simp [pairCache], ?_⟩, ?_, ?_⟩
  · intro entry hentry cell hcell
    rw [List.mem_singleton.mp hentry] at hcell ⊢
    rw [← Option.some.inj hcell]
    rfl
  · intro address index pool hindex hpool
    rw [pairIndex] at hindex
    split at hindex
    · rename_i heq
      rw [← Option.some.inj hindex] at hpool
      rw [← Option.some.inj hpool, heq]
      rfl
    · exact absurd hindex (by simp)
  · show _ ≤ _ ∧ _ ≤ _
    decide +kernel

/-- The build, and what its arena holds. -/
lemma exists_pairBuild :
    ∃ report next row, (StateArena.default mixHash).syncFromDiscoveryGated mixHash
        (pairCache ⟨some 5, fundedV2⟩ 1) [discoveredPair .uniswapV2] pairIndex none false =
          some (report, next) ∧
      row ∈ report.metas ∧ row.poolIndex = 0 ∧ next.inner.pools[0]? = some ⟨some 5, fundedV2⟩ ∧
      next.inner.addressToPool 1#160 = some 0 := by
  have hsync : ((StateArena.default mixHash).syncFromDiscoveryGated mixHash
      (pairCache ⟨some 5, fundedV2⟩ 1) [discoveredPair .uniswapV2] pairIndex none false).any
      (fun synced => synced.1.metas.any (fun row => row.poolIndex = 0) &&
        decide (synced.2.inner.pools[0]? = some ⟨some 5, fundedV2⟩) &&
        decide (synced.2.inner.addressToPool 1#160 = some 0)) = true := by
    decide +kernel
  rcases (Option.any_eq_true _ _).mp hsync with ⟨⟨report, next⟩, hsome, hprop⟩
  simp only [Bool.and_eq_true, decide_eq_true_eq, List.any_eq_true] at hprop
  rcases hprop with ⟨⟨⟨row, hrow, hindex⟩, hslot⟩, haddress⟩
  exact ⟨report, next, row, hsome, hrow, hindex, hslot, haddress⟩

/-- A refresh with the state the pool has. -/
theorem hotOverlay_family_refresh :
    ∃ view row, ViewReachable mixHash pairHeap view ∧ row ∈ view.metas ∧
      ¬ view.struck row.poolIndex ∧ ∃ state, view.arena.poolState row.poolIndex = some state ∧
        protocolMatchesPoolState row.protocol state = true := by
  rcases exists_pairBuild with ⟨report, next, row, hsync, hrow, hindex, hslot, -⟩
  have hreach : ViewReachable mixHash pairHeap _ :=
    .applyHotCacheUnique (.build .default buildOk_pair hsync) (pairCache ⟨some 5, fundedV2⟩ 2) [1#160]
  have hfree : ¬ (ArenaView.applyHotCacheUnique ⟨next, report.metas, fun _ => False⟩
      (pairCache ⟨some 5, fundedV2⟩ 2) [1#160]).struck row.poolIndex := by
    rintro (hbefore | ⟨address, haddress, -, arc, revision, hlive, hinvalid⟩)
    · exact hbefore
    · rw [List.mem_singleton.mp haddress] at hlive
      have harc : (⟨some 5, fundedV2⟩ : PoolArc) = arc := congrArg Prod.fst (Option.some.inj hlive)
      rw [← harc] at hinvalid
      exact absurd hinvalid (by decide)
  have hentry : (ArenaView.applyHotCacheUnique ⟨next, report.metas, fun _ => False⟩
      (pairCache ⟨some 5, fundedV2⟩ 2) [1#160]).arena.inner.pools[row.poolIndex]? =
        some ⟨some 5, fundedV2⟩ := by
    rw [ArenaView.applyHotCacheUnique, StateArena.inner_applyHotCacheUnique, hindex]
    exact hslot
  exact ⟨_, row, hreach, hrow, hfree, (hotOverlay_family mixHash pairHeap _ hreach).1 row hrow _ hentry
    (by decide) hfree⟩

/-- The cache turns invalid: the pool, tradable in the arena, is skipped after the refresh. -/
theorem hotOverlay_turns_invalid :
    ¬ ∀ (fx : FxHasher) (heap : ℕ → PoolState) (view : ArenaView), ViewReachable fx heap view →
      ∀ row ∈ view.metas, ∀ entry, view.arena.inner.pools[row.poolIndex]? = some entry →
        entry.state.isTradable = true →
        ∃ state, view.arena.poolState row.poolIndex = some state ∧
          protocolMatchesPoolState row.protocol state = true := by
  intro hall
  rcases exists_pairBuild with ⟨report, next, row, hsync, hrow, hindex, hslot, haddress⟩
  have hbuilt : ViewReachable mixHash pairHeap ⟨next, report.metas, fun _ => False⟩ :=
    .build .default buildOk_pair hsync
  have hreach := hbuilt.applyHotCacheUnique (pairCache ⟨none, .invalid⟩ 2) [1#160]
  have hhands : next.HandsInvalid (pairCache ⟨none, .invalid⟩ 2) [1#160] 0 :=
    ⟨1#160, List.mem_singleton_self _, haddress, ⟨none, .invalid⟩, 2, rfl, rfl⟩
  have hinvalid := StateArena.poolState_of_handsInvalid hbuilt.inv.slots hbuilt.inv.tables hhands
  have hentry : (ArenaView.applyHotCacheUnique ⟨next, report.metas, fun _ => False⟩
      (pairCache ⟨none, .invalid⟩ 2) [1#160]).arena.inner.pools[row.poolIndex]? =
        some ⟨some 5, fundedV2⟩ := by
    rw [ArenaView.applyHotCacheUnique, StateArena.inner_applyHotCacheUnique, hindex]
    exact hslot
  rcases hall mixHash pairHeap _ hreach row hrow _ hentry (by decide) with
    ⟨state, hstate, hmatch⟩
  rw [hindex] at hstate
  have hsame : state = .invalid := Option.some.inj (hstate.symm.trans hinvalid)
  rw [hsame] at hmatch
  exact absurd rfl (StateArena.ne_invalid_of_matches hmatch)

end PolygonArb

import PolygonArb.Pipeline.V3Ticks
import PolygonArb.Pipeline.V4Ticks

/-!
# Waves of reads

What one wave of `pipeline/tick_fetch.rs` does to the arena is a function of the replies alone: the entries that
they show are stored, whatever the flags say.  A batch that fails answers nothing.

Storing changes nothing about a pool but its ticks (`clShape`), so the requests of a later wave are those that
the arena had for it in the first place.
-/

namespace PolygonArb

open Word ByteFormat

/-- The answers of a batch; none if it failed. -/
def Multicall.answers (rpc : Multicall) (items : List MulticallItem) : List (Option (List Byte)) :=
  match rpc.run items with
  | .ok results => results
  | .error _ => []

/-- There are calls, and the batch failed as a whole. -/
def Multicall.Failed (rpc : Multicall) (items : List MulticallItem) : Prop :=
  items ≠ [] ∧ ∃ e, rpc.run items = .error e

section Answers

variable {rpc : Multicall} {items : List MulticallItem}

lemma length_answers_le : (rpc.answers items).length ≤ items.length := by
  rw [Multicall.answers]
  cases hrun : rpc.run items with
  | error e => exact Nat.zero_le _
  | ok results => exact (rpc.length_run hrun).le

@[simp] lemma answers_nil : rpc.answers [] = [] :=
  List.eq_nil_of_length_eq_zero (Nat.le_zero.mp length_answers_le)

lemma answers_of_error {e : String} (h : rpc.run items = .error e) : rpc.answers items = [] := by
  rw [Multicall.answers, h]

lemma answers_of_ok {results : List (Option (List Byte))} (h : rpc.run items = .ok results) :
    rpc.answers items = results := by
  rw [Multicall.answers, h]

lemma not_failed_of_ok {results : List (Option (List Byte))} (h : rpc.run items = .ok results) :
    ¬rpc.Failed items := by
  rintro ⟨-, e, he⟩
  rw [h] at he
  cases he

@[simp] lemma answer_nil {σ : Type} (span : Span σ) (offset : ℕ) : span.answer [] offset = none := rfl

end Answers

/-! ## What the replies show -/

section Entries

variable {κ : Type} {entry : κ × ℤ → Option (List Byte) → Option (PoolIndex × V3Tick)} {slot : κ → PoolIndex}
  {reads : List (κ × ℤ)} {states : List (Option (List Byte))} {i : PoolIndex}

/-- Nothing is shown for a slot if and only if no reply to one of its reads is a tick. -/
lemma entriesOf_reads_eq_nil (hslot : ∀ {call bytes e}, entry call bytes = some e → e.1 = slot call.1) :
    entriesOf ((reads.zip states).filterMap fun (call, bytes) => entry call bytes) i = [] ↔
      ∀ (k : ℕ) call bytes, reads[k]? = some call → states[k]? = some bytes → slot call.1 = i →
        entry call bytes = none := by
  rw [entriesOf_eq_nil]
  constructor
  · intro h k call bytes hcall hbytes hi
    rcases hentry : entry call bytes with _ | e
    · rfl
    · refine absurd (List.mem_map.mpr ⟨e, List.mem_filterMap.mpr ⟨(call, bytes), ?_, hentry⟩, ?_⟩) h
      · refine List.mem_of_getElem? (i := k) ?_
        rw [List.getElem?_zip_eq_some]
        exact ⟨hcall, hbytes⟩
      · rw [hslot hentry, hi]
  · intro h hmem
    rcases List.mem_map.mp hmem with ⟨e, he, hkey⟩
    rcases List.mem_filterMap.mp he with ⟨⟨call, bytes⟩, hpair, hentry⟩
    rcases List.getElem?_of_mem hpair with ⟨k, hk⟩
    rw [List.getElem?_zip_eq_some] at hk
    dsimp only at hentry
    have hnone := h k call bytes hk.1 hk.2 (by rw [← hslot hentry, hkey])
    rw [hnone] at hentry
    cases hentry

/-- If every read is answered with its tick, the entries of a slot are the ticks read for it. -/
lemma map_entriesOf_reads (hslot : ∀ {call bytes e}, entry call bytes = some e → e.1 = slot call.1 ∧
      e.2.tick = call.2) (hlength : reads.length = states.length)
    (hall : ∀ pair ∈ reads.zip states, (entry pair.1 pair.2).isSome) :
    (entriesOf ((reads.zip states).filterMap fun (call, bytes) => entry call bytes) i).map V3Tick.tick =
      (reads.filter fun call => slot call.1 = i).map Prod.snd := by
  induction reads generalizing states with
  | nil => simp [entriesOf]
  | cons call reads ih =>
      cases states with
      | nil => cases hlength
      | cons bytes states =>
          rw [List.zip_cons_cons, List.forall_mem_cons] at hall
          rcases Option.isSome_iff_exists.mp hall.1 with ⟨e, he⟩
          rcases hslot he with ⟨hkey, htick⟩
          have hrest := ih (Nat.succ.inj hlength) hall.2
          rw [entriesOf] at hrest ⊢
          rw [List.zip_cons_cons, List.filterMap_cons_some (b := e) (by exact he), List.filterMap_cons,
            List.filter_cons, hkey]
          by_cases hi : slot call.1 = i
          · simp [hi, htick, hrest]
          · simp [hi, hrest]

end Entries

/-! ## Waves -/

/-- The reads that the budget lets through. -/
def queuedReads {κ : Type} (windows : List (PoolWindow κ)) : List (κ × ℤ) :=
  (wantedReads windows).take maxClTickInfoReads

/-- The words of a wave as they were answered, and the answers to the reads of ticks. -/
structure Wave (κ : Type) where
  windows : List (PoolWindow κ)
  states : List (Option (List Byte))
  length_le : states.length ≤ (queuedReads windows).length

/-- How the family reads a reply: which slot a read is for, which replies can be read at all, and which are a
tick with liquidity. -/
structure TickReader (κ : Type) where
  slot : κ → PoolIndex
  Readable : List Byte → Prop
  entry : κ × ℤ → Option (List Byte) → Option (PoolIndex × V3Tick)
  slot_entry : ∀ {call bytes e}, entry call bytes = some e → e.1 = slot call.1 ∧ e.2.tick = call.2

namespace Wave

variable {κ : Type} (wave : Wave κ) (reader : TickReader κ) (i : PoolIndex)

def entries : List (PoolIndex × V3Tick) :=
  ((queuedReads wave.windows).zip wave.states).filterMap fun (call, bytes) => reader.entry call bytes

/-- No reply is a tick of the slot. -/
def ShowsNothing : Prop := entriesOf (wave.entries reader) i = []

/-- A word of the slot was not answered. -/
def WordGap : Prop := ∃ window ∈ wave.windows, reader.slot window.owner = i ∧ ¬window.Answered

/-- A tick of the slot whose bit is set was not read: cut by the budget, or without a reply that can be read. -/
def TickGap : Prop :=
  ∃ (k : ℕ) (call : κ × ℤ), (wantedReads wave.windows)[k]? = some call ∧ reader.slot call.1 = i ∧
    ∀ bytes, wave.states[k]? = some (some bytes) → ¬reader.Readable bytes

/-- The slot was asked for, every word and every tick of it was answered, and none has liquidity. -/
structure ProvesEmpty : Prop where
  asked : ∃ window ∈ wave.windows, reader.slot window.owner = i
  words : ∀ window ∈ wave.windows, reader.slot window.owner = i → window.Answered
  ticks : ∀ (k : ℕ) (call : κ × ℤ), (wantedReads wave.windows)[k]? = some call → reader.slot call.1 = i →
    ∃ bytes, wave.states[k]? = some (some bytes) ∧ reader.Readable bytes ∧ reader.entry call (some bytes) = none

variable {wave reader i}

lemma showsNothing_iff : wave.ShowsNothing reader i ↔
    ∀ (k : ℕ) call bytes, (wantedReads wave.windows)[k]? = some call → wave.states[k]? = some bytes →
      reader.slot call.1 = i → reader.entry call bytes = none := by
  have hiff := @entriesOf_reads_eq_nil κ reader.entry reader.slot (queuedReads wave.windows) wave.states i
    fun h => (reader.slot_entry h).1
  rw [ShowsNothing, entries, hiff]
  constructor
  · intro h k call bytes hcall hbytes hi
    refine h k call bytes ?_ hbytes hi
    have hlt := (List.getElem?_eq_some_iff.mp hbytes).1.trans_le wave.length_le
    rw [queuedReads, List.length_take] at hlt
    rw [queuedReads, List.getElem?_take_of_lt (by omega)]
    exact hcall
  · intro h k call bytes hcall hbytes hi
    refine h k call bytes ?_ hbytes hi
    rw [queuedReads, List.getElem?_take] at hcall
    split_ifs at hcall
    exact hcall

/-- A slot that was asked for is proved empty if and only if nothing is missing and nothing shows. -/
lemma provesEmpty_iff (hasked : ∃ window ∈ wave.windows, reader.slot window.owner = i) :
    wave.ProvesEmpty reader i ↔
      wave.ShowsNothing reader i ∧ ¬wave.WordGap reader i ∧ ¬wave.TickGap reader i := by
  rw [showsNothing_iff]
  constructor
  · intro h
    refine ⟨?_, ?_, ?_⟩
    · intro k call bytes hcall hbytes hi
      rcases h.ticks k call hcall hi with ⟨reply, hreply, -, hnone⟩
      rw [hreply, Option.some_inj] at hbytes
      rwa [← hbytes]
    · rintro ⟨window, hwindow, hi, hgap⟩
      exact hgap (h.words window hwindow hi)
    · rintro ⟨k, call, hcall, hi, hgap⟩
      rcases h.ticks k call hcall hi with ⟨reply, hreply, hread, -⟩
      exact hgap reply hreply hread
  · rintro ⟨hnone, hwords, hticks⟩
    refine ⟨hasked, ?_, ?_⟩
    · intro window hwindow hi
      by_contra hgap
      exact hwords ⟨window, hwindow, hi, hgap⟩
    · intro k call hcall hi
      by_contra hmissing
      refine hticks ⟨k, call, hcall, hi, fun bytes hbytes hread => hmissing ⟨bytes, hbytes, hread, ?_⟩⟩
      exact hnone k call (some bytes) hcall hbytes hi

end Wave

/-! ## Storing -/

section Shape

/-- A pool apart from its ticks. -/
def clShape (family : ClFamily) (arena : StateArena) (i : PoolIndex) : Option ConcentratedLiquidityPoolState :=
  (clPool family arena i).map fun s => { s with ticks := [] }

/-- A pool of the family without ticks. -/
def Tickless (family : ClFamily) (arena : StateArena) (i : PoolIndex) : Prop :=
  ∃ s, clPool family arena i = some s ∧ s.ticks = []

/-- Nothing is laid over a slot that does not exist. -/
def StateArena.OverlayFits (arena : StateArena) : Prop :=
  arena.hotOverlay.length ≤ arena.inner.pools.length

variable {family : ClFamily} {arena : StateArena} {i j : PoolIndex} {ticks : List V3Tick}
  {groups : List (PoolIndex × List V3Tick)}

lemma clPool_of_not_hasSlot (hfits : arena.OverlayFits) (h : ¬HasSlot arena i) :
    clPool family arena i = none := by
  rw [HasSlot, not_lt] at h
  rw [clPool, StateArena.poolState, List.getElem?_eq_none (h.trans' hfits), List.getElem?_eq_none h]
  rfl

lemma hasSlot_of_tickless (hfits : arena.OverlayFits) (h : Tickless family arena i) :
    HasSlot arena i := by
  rcases h with ⟨s, hs, -⟩
  by_contra hnot
  rw [clPool_of_not_hasSlot hfits hnot] at hs
  cases hs

lemma overlayFits_poolStateMut (edit : PoolState → PoolState) (h : arena.OverlayFits) :
    (arena.poolStateMut i edit).OverlayFits := by
  rw [StateArena.OverlayFits, StateArena.length_pools_poolStateMut]
  rw [StateArena.poolStateMut, List.length_set]
  exact h

lemma overlayFits_storeTicks (h : arena.OverlayFits) :
    (storeTicks family arena i ticks).1.OverlayFits := by
  rw [storeTicks]
  split
  · exact overlayFits_poolStateMut _ h
  · exact overlayFits_poolStateMut _ h

lemma overlayFits_storeGroups (h : arena.OverlayFits) : (storeGroups family groups arena).1.OverlayFits := by
  induction groups generalizing arena with
  | nil => exact h
  | cons group groups ih => exact ih (overlayFits_storeTicks h)

lemma tables_storeTicks :
    (storeTicks family arena i ticks).1.inner.addressToPool = arena.inner.addressToPool ∧
      (storeTicks family arena i ticks).1.inner.poolAddresses = arena.inner.poolAddresses := by
  rw [storeTicks]
  split
  · exact ⟨rfl, rfl⟩
  · exact ⟨rfl, rfl⟩

lemma tables_storeGroups :
    (storeGroups family groups arena).1.inner.addressToPool = arena.inner.addressToPool ∧
      (storeGroups family groups arena).1.inner.poolAddresses = arena.inner.poolAddresses := by
  induction groups generalizing arena with
  | nil => exact ⟨rfl, rfl⟩
  | cons group groups ih =>
      have hone := @tables_storeTicks family arena group.1 (finalizeClTicks group.2)
      have hrest := @ih (storeTicks family arena group.1 (finalizeClTicks group.2)).1
      exact ⟨hrest.1.trans hone.1, hrest.2.trans hone.2⟩

lemma clShape_storeTicks (hfits : arena.OverlayFits) :
    clShape family (storeTicks family arena i ticks).1 j = clShape family arena j := by
  rw [clShape, clShape]
  by_cases hij : i = j
  · subst hij
    by_cases hslot : HasSlot arena i
    · rw [clPool_storeTicks_self hslot, Option.map_map]
      rfl
    · have hslot' : ¬HasSlot (storeTicks family arena i ticks).1 i := by rwa [hasSlot_storeTicks]
      rw [clPool_of_not_hasSlot hfits hslot,
        clPool_of_not_hasSlot (overlayFits_storeTicks hfits) hslot']
  · rw [clPool_storeTicks_ne hij]

lemma clShape_storeGroups (hfits : arena.OverlayFits) :
    clShape family (storeGroups family groups arena).1 j = clShape family arena j := by
  induction groups generalizing arena with
  | nil => rfl
  | cons group groups ih =>
      exact (ih (overlayFits_storeTicks hfits)).trans (clShape_storeTicks hfits)

lemma tickless_storeTicks (hfits : arena.OverlayFits) (hticks : ticks ≠ []) :
    Tickless family (storeTicks family arena i ticks).1 j ↔ Tickless family arena j ∧ i ≠ j := by
  by_cases hij : i = j
  · subst hij
    simp only [ne_eq, not_true_eq_false, and_false, iff_false]
    intro h
    have hslot := hasSlot_storeTicks.mp (hasSlot_of_tickless (overlayFits_storeTicks hfits) h)
    rcases h with ⟨s, hs, hnil⟩
    rw [clPool_storeTicks_self hslot] at hs
    rcases Option.map_eq_some_iff.mp hs with ⟨s', -, rfl⟩
    exact hticks hnil
  · simp [Tickless, clPool_storeTicks_ne hij, hij]

/-- What does not look at the ticks follows from the shape. -/
lemma map_clPool_congr {β : Type} {g : ConcentratedLiquidityPoolState → β} {arena' : StateArena}
    (hg : ∀ s, g { s with ticks := [] } = g s) (h : clShape family arena' i = clShape family arena i) :
    (clPool family arena' i).map g = (clPool family arena i).map g := by
  have hshape : ∀ arena, (clPool family arena i).map g = (clShape family arena i).map g := by
    intro arena
    rw [clShape, Option.map_map]
    exact Option.map_congr fun s _ => (hg s).symm
  rw [hshape, hshape, h]

/-- A pool stays without ticks if and only if nothing is stored for it. -/
lemma tickless_storeGroups (hfits : arena.OverlayFits) (hgroups : ∀ group ∈ groups, group.2 ≠ []) :
    Tickless family (storeGroups family groups arena).1 j ↔
      Tickless family arena j ∧ j ∉ groups.map Prod.fst := by
  induction groups generalizing arena with
  | nil => simp [storeGroups]
  | cons group groups ih =>
      rw [List.forall_mem_cons] at hgroups
      have hne : finalizeClTicks group.2 ≠ [] := by
        rw [ne_eq, finalizeClTicks_eq_nil]
        exact hgroups.1
      simp only [storeGroups]
      rw [ih (overlayFits_storeTicks hfits) hgroups.2, tickless_storeTicks hfits hne, List.map_cons,
        List.mem_cons, not_or, and_assoc]
      exact and_congr_right fun _ => and_congr_left fun _ => ne_comm

lemma storeGroups_append (groups' : List (PoolIndex × List V3Tick)) :
    storeGroups family (groups ++ groups') arena =
      ((storeGroups family groups' (storeGroups family groups arena).1).1,
        (storeGroups family groups arena).2 + (storeGroups family groups' (storeGroups family groups arena).1).2) := by
  induction groups generalizing arena with
  | nil => simp [storeGroups]
  | cons group groups ih => simp [storeGroups, ih, Nat.add_assoc]

lemma tickless_storeEntries {entries : List (PoolIndex × V3Tick)} (hfits : arena.OverlayFits) :
    Tickless family (storeGroups family (groupTicks entries) arena).1 j ↔
      Tickless family arena j ∧ entriesOf entries j = [] := by
  have hgroups : ∀ group ∈ groupTicks entries, group.2 ≠ [] := by
    intro group hgroup hnil
    rcases List.mem_map.mp hgroup with ⟨k, hk, rfl⟩
    exact entriesOf_eq_nil.mp hnil (List.mem_dedup.mp hk)
  rw [tickless_storeGroups hfits hgroups, keys_groupTicks, List.mem_dedup, entriesOf_eq_nil]

/-- Replies store no more than there are slots to reply for. -/
lemma stored_le {entries : List (PoolIndex × V3Tick)} {keys : List PoolIndex}
    (hkeys : ∀ k ∈ entries.map Prod.fst, k ∈ keys) :
    (storeGroups family (groupTicks entries) arena).2 ≤ keys.length := by
  have hsub : (entries.map Prod.fst).dedup ⊆ keys := fun k hk => hkeys k (List.mem_dedup.mp hk)
  have hlen := (List.subperm_of_subset (List.nodup_dedup _) hsub).length_le
  have hstored := @stored_storeGroups_le family (groupTicks entries) arena
  have hgroups : (groupTicks entries).length = (entries.map Prod.fst).dedup.length := by
    rw [← keys_groupTicks, List.length_map]
  omega

/-- A pool that nothing is shown for is one that is not updated. -/
lemma stored_lt {entries : List (PoolIndex × V3Tick)} {keys : List PoolIndex}
    (hkeys : ∀ k ∈ entries.map Prod.fst, k ∈ keys) (hj : j ∈ keys) (hnone : entriesOf entries j = []) :
    (storeGroups family (groupTicks entries) arena).2 < keys.length := by
  have hothers : ∀ k ∈ entries.map Prod.fst, k ∈ keys.erase j := by
    intro k hk
    rw [List.mem_erase_of_ne]
    · exact hkeys k hk
    · rintro rfl
      exact entriesOf_eq_nil.mp hnone hk
  have hstored := @stored_le family arena _ _ hothers
  have hpos := List.length_pos_of_mem hj
  rw [List.length_erase_of_mem hj] at hstored
  omega

end Shape

/-! ## A wave of V4 pools -/

section V4Wave

variable (keccak256 : List Byte → BitVec 256) (order : TieOrder) (rpc : BitmapRpc) (arena : StateArena)
  (targets : List (PoolIndex × PoolId)) (wordRange : ℤ)

/-- A V4 reply is a storage word with the liquidity of the tick. -/
def v4Reader : TickReader (PoolIndex × PoolId) where
  slot := Prod.fst
  Readable bytes := (decodeAbiWord bytes).isSome
  entry := v4TickEntry
  slot_entry {call bytes e} h := by
    rw [v4TickEntry, Option.bind_eq_some_iff] at h
    rcases h with ⟨raw, -, hraw⟩
    rw [Option.ite_none_right_eq_some] at hraw
    rcases hraw with ⟨-, hraw⟩
    cases hraw
    exact ⟨rfl, rfl⟩

def v4WaveWindows : List (PoolWindow (PoolIndex × PoolId)) :=
  v4Windows keccak256 order arena wordRange targets
    (rpc.words.answers (batch (v4Requests keccak256 arena wordRange targets)))

def v4Wave : Wave (PoolIndex × PoolId) where
  windows := v4WaveWindows keccak256 order rpc arena targets wordRange
  states := rpc.ticks.answers (tickItems keccak256
    (queuedReads (v4WaveWindows keccak256 order rpc arena targets wordRange)))
  length_le := length_answers_le.trans (List.length_map _).le

/-- One of the two batches of the wave failed as a whole. -/
def V4WaveFailed : Prop :=
  rpc.words.Failed (batch (v4Requests keccak256 arena wordRange targets)) ∨
    rpc.ticks.Failed (tickItems keccak256
      (queuedReads (v4WaveWindows keccak256 order rpc arena targets wordRange)))

variable {keccak256 order rpc arena targets wordRange}

lemma wantedReads_eq_nil {κ : Type} {windows : List (PoolWindow κ)}
    (h : ∀ window ∈ windows, ∀ offset, window.words offset = none) : wantedReads windows = [] := by
  rw [wantedReads, List.flatMap_eq_nil_iff]
  intro window hwindow
  rw [List.map_eq_nil_iff, PoolWindow.ticks, List.flatMap_eq_nil_iff]
  intro offset _
  rw [PoolWindow.block, h window hwindow offset]

lemma queuedReads_v4Windows_nil : queuedReads (v4Windows keccak256 order arena wordRange targets []) = [] := by
  rw [queuedReads, wantedReads_eq_nil, List.take_nil]
  intro window hwindow offset
  rcases List.mem_map.mp hwindow with ⟨span, -, rfl⟩
  rfl

lemma entries_v4Wave_of_nil
    (h : queuedReads (v4WaveWindows keccak256 order rpc arena targets wordRange) = []) :
    (v4Wave keccak256 order rpc arena targets wordRange).entries v4Reader = [] := by
  rw [Wave.entries, v4Wave]
  dsimp only
  rw [h, List.zip_nil_left, List.filterMap_nil]

lemma v4WaveFailed_of_nil (h : queuedReads (v4WaveWindows keccak256 order rpc arena targets wordRange) = []) :
    V4WaveFailed keccak256 order rpc arena targets wordRange ↔
      rpc.words.Failed (batch (v4Requests keccak256 arena wordRange targets)) := by
  rw [V4WaveFailed, h]
  simp [tickItems, Multicall.Failed]

lemma v4WaveWindows_of_ok {bitmaps : List (Option (List Byte))}
    (h : rpc.words.run (batch (v4Requests keccak256 arena wordRange targets)) = .ok bitmaps) :
    v4WaveWindows keccak256 order rpc arena targets wordRange =
      v4Windows keccak256 order arena wordRange targets bitmaps := by
  rw [v4WaveWindows, answers_of_ok h]

lemma queued_v4Wave_of_no_words
    (h : rpc.words.answers (batch (v4Requests keccak256 arena wordRange targets)) = []) :
    queuedReads (v4WaveWindows keccak256 order rpc arena targets wordRange) = [] := by
  rw [v4WaveWindows, h, queuedReads_v4Windows_nil]

/-- What the wave does to the arena, and when it says that it failed. -/
theorem enrichV4TicksOnce_eq :
    (enrichV4TicksOnce keccak256 order rpc arena targets wordRange).1 =
        (storeGroups .v4 (groupTicks
          ((v4Wave keccak256 order rpc arena targets wordRange).entries v4Reader)) arena).1 ∧
      ((enrichV4TicksOnce keccak256 order rpc arena targets wordRange).2.rpcFailed = true ↔
        V4WaveFailed keccak256 order rpc arena targets wordRange) := by
  rw [enrichV4TicksOnce]
  dsimp only
  by_cases hnone : batch (v4Requests keccak256 arena wordRange targets) = []
  · have hqueued := @queued_v4Wave_of_no_words keccak256 order rpc arena targets wordRange
      (by rw [hnone, answers_nil])
    rw [if_pos hnone, entries_v4Wave_of_nil hqueued, v4WaveFailed_of_nil hqueued, hnone]
    exact ⟨rfl, by simp [Multicall.Failed, TickEnrichment.default]⟩
  · rw [if_neg hnone]
    cases hrun : rpc.words.run (batch (v4Requests keccak256 arena wordRange targets)) with
    | error e =>
        have hqueued := @queued_v4Wave_of_no_words keccak256 order rpc arena targets wordRange
          (answers_of_error hrun)
        rw [entries_v4Wave_of_nil hqueued, v4WaveFailed_of_nil hqueued]
        exact ⟨rfl, by simp [Multicall.Failed, hnone, hrun]⟩
    | ok bitmaps =>
        dsimp only
        have hqueued : readOnce maxClTickInfoReads
            (v4Windows keccak256 order arena wordRange targets bitmaps) [] =
              queuedReads (v4WaveWindows keccak256 order rpc arena targets wordRange) := by
          rw [readOnce_eq_readTurns, calls_readTurns, v4WaveWindows_of_ok hrun, queuedReads]
        rw [hqueued]
        split_ifs with howners
        · rw [entries_v4Wave_of_nil howners, v4WaveFailed_of_nil howners]
          exact ⟨rfl, by simp [TickEnrichment.default, not_failed_of_ok hrun]⟩
        · have hitems : tickItems keccak256
              (queuedReads (v4WaveWindows keccak256 order rpc arena targets wordRange)) ≠ [] := by
            simpa [tickItems] using howners
          rw [V4WaveFailed, or_iff_right (not_failed_of_ok hrun), Wave.entries, v4Wave]
          cases hticks : rpc.ticks.run (tickItems keccak256
              (queuedReads (v4WaveWindows keccak256 order rpc arena targets wordRange))) with
          | error e =>
              dsimp only
              rw [answers_of_error hticks, List.zip_nil_right]
              exact ⟨rfl, by simp [Multicall.Failed, hitems, hticks]⟩
          | ok states =>
              dsimp only
              rw [answers_of_ok hticks]
              exact ⟨rfl, by simp [TickEnrichment.default, not_failed_of_ok hticks]⟩

/-- The first wave is over at once if there is nothing to read or a batch fails. -/
lemma v4Narrow_error (h : batch (v4Requests keccak256 arena wordRange targets) = [] ∨
      V4WaveFailed keccak256 order rpc arena targets wordRange) :
    ∃ report, v4Narrow keccak256 order rpc arena targets wordRange = .error report := by
  rw [v4Narrow]
  dsimp only
  by_cases hnone : batch (v4Requests keccak256 arena wordRange targets) = []
  · rw [if_pos hnone]
    exact ⟨_, rfl⟩
  · rw [if_neg hnone]
    have hfailed := h.resolve_left hnone
    cases hrun : rpc.words.run (batch (v4Requests keccak256 arena wordRange targets)) with
    | error e => exact ⟨_, rfl⟩
    | ok bitmaps =>
        rcases hfailed.resolve_left (not_failed_of_ok hrun) with ⟨hitems, e, he⟩
        rw [v4WaveWindows_of_ok hrun] at hitems he
        dsimp only
        rw [calls_readTurns, ← queuedReads, if_neg (by simpa [tickItems] using hitems), he]
        exact ⟨_, rfl⟩

/-- No turn was cut short, and every word was answered. -/
lemma turns_clear_iff {κ ι : Type} [DecidableEq ι] {windows : List (PoolWindow κ)} (slot : κ → ι) :
    ((((readTurns maxClTickInfoReads windows []).2.filter fun turn => turn.2 ≠ .done true).map
          fun turn => slot turn.1).dedup = [] ∧
        ((readTurns maxClTickInfoReads windows []).2.any fun turn => turn.2.isCapped) = false) ↔
      ¬Overruns maxClTickInfoReads windows ∧ ∀ window ∈ windows, window.Answered := by
  rw [← readTurns_done_iff, List.dedup_eq_nil, List.map_eq_nil_iff, List.filter_eq_nil_iff, List.any_eq_false]
  constructor
  · rintro ⟨hdone, -⟩ turn hturn
    simpa using hdone turn hturn
  · intro hdone
    refine ⟨fun turn hturn => ?_, fun turn hturn => ?_⟩
    · simpa using hdone turn hturn
    · rw [hdone turn hturn]
      simp [TurnEnd.isCapped]

lemma v4Narrow_ok (hne : batch (v4Requests keccak256 arena wordRange targets) ≠ [])
    (h : ¬V4WaveFailed keccak256 order rpc arena targets wordRange) :
    ∃ narrow, v4Narrow keccak256 order rpc arena targets wordRange = .ok narrow ∧
      narrow.arena = (storeGroups .v4 (groupTicks
        ((v4Wave keccak256 order rpc arena targets wordRange).entries v4Reader)) arena).1 ∧
      narrow.updated = (storeGroups .v4 (groupTicks
        ((v4Wave keccak256 order rpc arena targets wordRange).entries v4Reader)) arena).2 ∧
      ((narrow.incompletePools = [] ∧ narrow.capped = false) ↔
        ¬Overruns maxClTickInfoReads (v4WaveWindows keccak256 order rpc arena targets wordRange) ∧
          ∀ window ∈ v4WaveWindows keccak256 order rpc arena targets wordRange, window.Answered) := by
  rw [V4WaveFailed, not_or] at h
  rw [v4Narrow]
  dsimp only
  rw [if_neg hne]
  cases hrun : rpc.words.run (batch (v4Requests keccak256 arena wordRange targets)) with
  | error e => exact absurd ⟨hne, e, hrun⟩ h.1
  | ok bitmaps =>
      dsimp only
      have hqueued := @calls_readTurns _ maxClTickInfoReads
        (v4Windows keccak256 order arena wordRange targets bitmaps)
      rw [← queuedReads, ← v4WaveWindows_of_ok hrun] at hqueued
      rw [← v4WaveWindows_of_ok hrun, hqueued]
      have hturns := @turns_clear_iff (PoolIndex × PoolId) PoolIndex _
        (v4WaveWindows keccak256 order rpc arena targets wordRange) Prod.fst
      split_ifs with howners
      · refine ⟨_, rfl, ?_, ?_, hturns⟩
        · rw [entries_v4Wave_of_nil howners]
          rfl
        · rw [entries_v4Wave_of_nil howners]
          rfl
      · have hitems : tickItems keccak256
            (queuedReads (v4WaveWindows keccak256 order rpc arena targets wordRange)) ≠ [] := by
          simpa [tickItems] using howners
        rw [Wave.entries, v4Wave]
        cases hticks : rpc.ticks.run (tickItems keccak256
            (queuedReads (v4WaveWindows keccak256 order rpc arena targets wordRange))) with
        | error e => exact absurd ⟨hitems, e, hticks⟩ h.2
        | ok states =>
            dsimp only
            rw [answers_of_ok hticks]
            exact ⟨_, rfl, rfl, rfl, hturns⟩

section Congr

variable {arena' : StateArena}

/-- The requests look at nothing but the shape of the pools. -/
lemma v4Requests_congr (h : ∀ i, clShape .v4 arena' i = clShape .v4 arena i) :
    v4Requests keccak256 arena' wordRange targets = v4Requests keccak256 arena wordRange targets :=
  List.filterMap_congr fun target _ => map_clPool_congr (fun _ => rfl) (h target.1)

lemma v4WaveWindows_congr (h : ∀ i, clShape .v4 arena' i = clShape .v4 arena i) :
    v4WaveWindows keccak256 order rpc arena' targets wordRange =
      v4WaveWindows keccak256 order rpc arena targets wordRange := by
  rw [v4WaveWindows, v4WaveWindows, v4Windows, v4Windows, v4Requests_congr h]

lemma v4Wave_congr (h : ∀ i, clShape .v4 arena' i = clShape .v4 arena i) :
    v4Wave keccak256 order rpc arena' targets wordRange = v4Wave keccak256 order rpc arena targets wordRange := by
  simp only [v4Wave, v4WaveWindows_congr h]

lemma v4WaveFailed_congr (h : ∀ i, clShape .v4 arena' i = clShape .v4 arena i) :
    V4WaveFailed keccak256 order rpc arena' targets wordRange ↔
      V4WaveFailed keccak256 order rpc arena targets wordRange := by
  rw [V4WaveFailed, V4WaveFailed, v4Requests_congr h, v4WaveWindows_congr h]

end Congr

end V4Wave

/-! ## A wave of Algebra pools -/

section Turns

variable {κ : Type} {windows : List (PoolWindow κ)}

/-- Without a read to queue the budget is not used. -/
lemma not_overruns_of_queued_nil (h : queuedReads windows = []) : ¬Overruns maxClTickInfoReads windows := by
  rintro ⟨-, hfull⟩
  have hwanted : wantedReads windows = [] := by
    rw [queuedReads, List.take_eq_nil_iff] at h
    exact h.resolve_left (by norm_num [maxClTickInfoReads])
  have hsub : (windows.flatMap PoolWindow.marks).dropLast.reduceOption.length ≤
      (windows.flatMap PoolWindow.marks).reduceOption.length :=
    ((windows.flatMap PoolWindow.marks).dropLast_sublist.filterMap id).length_le
  rw [reduceOption_flatMap_marks, hwanted] at hsub
  simp only [maxClTickInfoReads, List.length_nil] at hfull hsub
  omega

/-- A turn is cut short if and only if the budget is used up with a check still to come. -/
lemma any_isCapped_iff : ((readTurns maxClTickInfoReads windows []).2.any fun turn => turn.2.isCapped) = true ↔
    Overruns maxClTickInfoReads windows := by
  have hcapped : ∀ ended : TurnEnd, ended.isCapped = true ↔ ∀ complete, ended ≠ .done complete := by
    intro ended
    cases ended with
    | done complete => simp [TurnEnd.isCapped]
    | skipped => simp [TurnEnd.isCapped]
    | capped => simp [TurnEnd.isCapped]
  rw [overruns_iff, (readTurns_eq_walk windows []).2.1, List.any_eq_true]
  simp only [hcapped]

end Turns

section AlgebraWave

variable (abi : TickAbi) (order : TieOrder) (rpc : BitmapRpc) (arena : StateArena) (targets : List AlgebraTarget)
  (integralPools : Finset Address)

lemma tick_of_decodeAlgebraTickEntry {abi : TickAbi} {bytes : List Byte} {tick : ℤ} {integral : Bool} {v : V3Tick}
    (h : decodeAlgebraTickEntry abi bytes tick integral = some v) : v.tick = tick := by
  rw [decodeAlgebraTickEntry] at h
  split_ifs at h with hlayout
  · rcases Option.bind_eq_some_iff.mp h with ⟨state, -, hstate⟩
    split_ifs at hstate
    cases hstate
    rfl
  · rcases Option.bind_eq_some_iff.mp h with ⟨state, -, hstate⟩
    split_ifs at hstate
    cases hstate
    rfl

/-- An Algebra reply is the state of the tick in one of the two layouts. -/
def algebraReader : TickReader (Address × PoolIndex) where
  slot := Prod.snd
  Readable bytes := (abi.decodeTicks bytes).isSome ∨
    ∃ state, abi.decodeIntegralTicks bytes = some state ∧ state.liquidityTotal.toNat < 2 ^ 128
  entry call bytes := bytes.bind (algebraTickEntry abi integralPools call)
  slot_entry {call bytes e} h := by
    rcases Option.bind_eq_some_iff.mp h with ⟨reply, -, hreply⟩
    rcases Option.map_eq_some_iff.mp hreply with ⟨v, hv, rfl⟩
    refine ⟨rfl, ?_⟩
    rcases Option.or_eq_some_iff.mp hv with hfirst | ⟨-, hother⟩
    · exact tick_of_decodeAlgebraTickEntry hfirst
    · exact tick_of_decodeAlgebraTickEntry hother

/-- The targets that the wave has room for. -/
def algebraWaveTargets : List AlgebraTarget := (algebraRanked order arena targets).take maxAlgebraTickPools

def algebraWaveBatch : List MulticallItem := batch (algebraRequests abi (algebraWaveTargets order arena targets))

def algebraWaveWindows : List (PoolWindow (Address × PoolIndex)) :=
  algebraWindows abi (algebraWaveTargets order arena targets)
    (rpc.words.answers (algebraWaveBatch abi order arena targets))

def algebraWave : Wave (Address × PoolIndex) where
  windows := algebraWaveWindows abi order rpc arena targets
  states := rpc.ticks.answers ((queuedReads (algebraWaveWindows abi order rpc arena targets)).map
    (algebraTickItem abi))
  length_le := length_answers_le.trans (List.length_map _).le

/-- One of the two batches of the wave failed as a whole. -/
def AlgebraWaveFailed : Prop :=
  rpc.words.Failed (algebraWaveBatch abi order arena targets) ∨
    rpc.ticks.Failed ((queuedReads (algebraWaveWindows abi order rpc arena targets)).map (algebraTickItem abi))

variable {abi order rpc arena targets integralPools}

lemma entries_algebraWave_of_nil (h : queuedReads (algebraWaveWindows abi order rpc arena targets) = []) :
    (algebraWave abi order rpc arena targets).entries (algebraReader abi integralPools) = [] := by
  rw [Wave.entries, algebraWave]
  dsimp only
  rw [h, List.zip_nil_left, List.filterMap_nil]

lemma algebraWaveFailed_of_nil (h : queuedReads (algebraWaveWindows abi order rpc arena targets) = []) :
    AlgebraWaveFailed abi order rpc arena targets ↔
      rpc.words.Failed (algebraWaveBatch abi order arena targets) := by
  rw [AlgebraWaveFailed, h]
  simp [Multicall.Failed]

lemma queued_algebraWave_of_no_words
    (h : rpc.words.answers (algebraWaveBatch abi order arena targets) = []) :
    queuedReads (algebraWaveWindows abi order rpc arena targets) = [] := by
  rw [algebraWaveWindows, h, queuedReads, wantedReads_eq_nil, List.take_nil]
  intro window hwindow offset
  rcases List.mem_map.mp hwindow with ⟨span, -, rfl⟩
  rfl

/-- What the wave does to the arena, how much it counts as loaded, and when it says that all went well: missing
words and missing ticks make no difference. -/
theorem enrichAlgebraTicks_eq :
    (enrichAlgebraTicks abi order rpc arena targets integralPools).1 =
        (storeGroups .v3 (groupTicks ((algebraWave abi order rpc arena targets).entries
          (algebraReader abi integralPools))) arena).1 ∧
      (enrichAlgebraTicks abi order rpc arena targets integralPools).2.loaded =
        (storeGroups .v3 (groupTicks ((algebraWave abi order rpc arena targets).entries
          (algebraReader abi integralPools))) arena).2 ∧
      ((enrichAlgebraTicks abi order rpc arena targets integralPools).2.rpcFailed = false ↔
        ¬AlgebraWaveFailed abi order rpc arena targets ∧
          ¬Overruns maxClTickInfoReads (algebraWaveWindows abi order rpc arena targets) ∧
          (algebraWaveBatch abi order arena targets = [] ∨ targets.length ≤ maxAlgebraTickPools)) := by
  have hranked : (algebraRanked order arena targets).length = targets.length :=
    (perm_byLiquidity order _ _).length_eq
  rw [enrichAlgebraTicks]
  dsimp only
  rw [← algebraWaveTargets, ← algebraWaveBatch, hranked]
  by_cases hnone : algebraWaveBatch abi order arena targets = []
  · have hqueued := @queued_algebraWave_of_no_words abi order rpc arena targets (by rw [hnone, answers_nil])
    rw [if_pos hnone, entries_algebraWave_of_nil hqueued, algebraWaveFailed_of_nil hqueued, hnone]
    exact ⟨rfl, rfl, by simp [Multicall.Failed, TickEnrichment.default, not_overruns_of_queued_nil hqueued]⟩
  · rw [if_neg hnone]
    cases hrun : rpc.words.run (algebraWaveBatch abi order arena targets) with
    | error e =>
        have hqueued := @queued_algebraWave_of_no_words abi order rpc arena targets (answers_of_error hrun)
        rw [entries_algebraWave_of_nil hqueued, algebraWaveFailed_of_nil hqueued]
        exact ⟨rfl, rfl, by simp [Multicall.Failed, hnone, hrun]⟩
    | ok bitmaps =>
        have hwindows : algebraWindows abi (algebraWaveTargets order arena targets) bitmaps =
            algebraWaveWindows abi order rpc arena targets := by
          rw [algebraWaveWindows, answers_of_ok hrun]
        have hqueued := @calls_readTurns _ maxClTickInfoReads (algebraWaveWindows abi order rpc arena targets)
        rw [← queuedReads] at hqueued
        dsimp only
        rw [hwindows, hqueued]
        split_ifs with howners
        · rw [entries_algebraWave_of_nil howners, algebraWaveFailed_of_nil howners]
          refine ⟨rfl, rfl, ?_⟩
          simp [hnone, not_failed_of_ok hrun, not_overruns_of_queued_nil howners]
        · have hitems : (queuedReads (algebraWaveWindows abi order rpc arena targets)).map
              (algebraTickItem abi) ≠ [] := by
            simpa using howners
          rw [AlgebraWaveFailed, or_iff_right (not_failed_of_ok hrun), Wave.entries, algebraWave]
          cases hticks : rpc.ticks.run ((queuedReads (algebraWaveWindows abi order rpc arena targets)).map
              (algebraTickItem abi)) with
          | error e =>
              dsimp only
              rw [answers_of_error hticks, List.zip_nil_right]
              exact ⟨rfl, rfl, by simp [Multicall.Failed, hticks, howners]⟩
          | ok states =>
              dsimp only
              rw [answers_of_ok hticks]
              refine ⟨rfl, rfl, ?_⟩
              rw [Bool.or_eq_false_iff, ← Bool.not_eq_true, any_isCapped_iff]
              simp [hnone, not_failed_of_ok hticks]

end AlgebraWave

/-! ## The codec on replies of a node -/

section Codec

/-- The word at a place of ABI data. -/
def abiWordAt (bytes : List Byte) (i : ℕ) : Option ℕ :=
  if 32 * i + 32 ≤ bytes.length then some (ofBe ((bytes.drop (32 * i)).take 32)) else none

def abiSigned (word : ℕ) : ℤ := (BitVec.ofNat 256 word).toInt

def abiPopulatedTick (bytes : List Byte) (k : ℕ) : Option PopulatedTick := do
  let tick ← abiWordAt bytes (3 * k + 2)
  let liquidityNet ← abiWordAt bytes (3 * k + 3)
  let liquidityGross ← abiWordAt bytes (3 * k + 4)
  some ⟨abiSigned tick, abiSigned liquidityNet, liquidityGross⟩

/-- The contract ABI of the three interfaces, on well-formed replies. -/
def contractAbi : TickAbi where
  getPopulatedTicksInWordCall pool word := [0x35, 0x1f, 0xb4, 0x78] ++ toBe 32 pool.toNat ++ abiInt word.toInt
  decodePopulatedTicks bytes := do
    let count ← abiWordAt bytes 1
    (List.range count).mapM (abiPopulatedTick bytes)
  tickTableCall word := [0xc6, 0x77, 0xe3, 0xe0] ++ abiInt word.toInt
  decodeTickTable bytes := (abiWordAt bytes 0).map (BitVec.ofNat 256)
  ticksCall tick := [0xf3, 0x0d, 0xba, 0x93] ++ abiInt tick
  decodeTicks bytes := do
    let liquidityTotal ← abiWordAt bytes 0
    let liquidityDelta ← abiWordAt bytes 1
    let initialized ← abiWordAt bytes 7
    some ⟨liquidityTotal, abiSigned liquidityDelta, initialized ≠ 0⟩
  decodeIntegralTicks bytes := do
    let liquidityTotal ← abiWordAt bytes 0
    let liquidityDelta ← abiWordAt bytes 1
    let _ ← abiWordAt bytes 5
    some ⟨BitVec.ofNat 256 liquidityTotal, abiSigned liquidityDelta⟩

end Codec

end PolygonArb

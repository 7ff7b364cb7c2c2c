import Mathlib.Data.List.Sort
import PolygonArb.Lib.Selection
import PolygonArb.Pipeline.GraphOps

/-!
# Selecting cycles

What is done with the cycles a search found before they are published: `dedupe_cycles_by_edges` of
`pipeline/cycle_filter.rs`, the protocol-diverse selection of `pipeline/cycle_finder.rs`, and the two
filters of `orchestrator/lf.rs`, which pin the cycles of observed pools and drop those over dust pairs.

Every function only drops and reorders.  The selection starts with a deduplication by edge list, so its
output has no two cycles with the same edges (`nodup_finalizeEnumeratedCycles`).  Pinning does not
deduplicate the cycles it pins: its output is free of repetitions when they were
(`nodup_pinCyclesTouchingPools`).
-/

namespace PolygonArb

open Selection Word

/-! ## Comparing cycles -/

/-- The number of edges; the cached count when it does not fit 32 bits. -/
def FoundCycle.edgeHops (c : FoundCycle) : ℕ :=
  if c.edges.length < 2 ^ 32 then c.edges.length else c.hopCount

def compareEdges (left right : Edge) : Ordering :=
  (((compare left.poolIndex right.poolIndex).then (compare left.tokenIn right.tokenIn)).then
      (compare left.tokenOut right.tokenOut)).then
    ((compare left.tokenInIdx right.tokenInIdx).then (compare left.tokenOutIdx right.tokenOutIdx))

def cycleTieBreak (a b : FoundCycle) : Ordering :=
  ((compare a.edgeHops b.edgeHops).then (compare a.startToken b.startToken)).then
    (((a.edges.zip b.edges).findSome? fun (left, right) =>
        let order := compareEdges left right
        if order = .eq then none else some order).getD
      (compare a.edges.length b.edges.length))

/-- Higher ratio first, then lower score. -/
def compareCycleScore (a b : FoundCycle) : Ordering :=
  ((compare b.cycleRatio.toNat a.cycleRatio.toNat).then
      (compare (totalKey a.score) (totalKey b.score))).then (cycleTieBreak a b)

def FoundCycle.profitable (c : FoundCycle) : Bool := one18 < c.cycleRatio

/-- Profitable first, then lower score, then higher ratio. -/
def compareCycleExecution (a b : FoundCycle) : Ordering :=
  (((compare b.profitable a.profitable).then (compare (totalKey a.score) (totalKey b.score))).then
      (compare b.cycleRatio.toNat a.cycleRatio.toNat)).then (cycleTieBreak a b)

def cyclePrefersCandidate (candidate incumbent : FoundCycle) : Bool :=
  compareCycleScore candidate incumbent = .lt

/-! ## Deduplication and selection -/

/-- The order in which a hash map hands out its values; it also decides the ties of an unstable
sort. -/
structure DrainOrder where
  drain : List FoundCycle → List FoundCycle
  perm : ∀ cycles, (drain cycles).Perm cycles

lemma perm_id (cycles : List FoundCycle) : (id cycles).Perm cycles := .refl cycles

variable (order : DrainOrder)

/-- The best-scored cycle for every edge list.  The source looks cycles up by the hash of the edge
list and compares the lists in full. -/
def dedupeCyclesByEdges (cycles : List FoundCycle) : List FoundCycle :=
  (order.drain (cycles.foldl (keepPreferred FoundCycle.edges cyclePrefersCandidate) [])).mergeSort
    fun a b => (compareCycleScore a b).isLE

def protocolFromSlot : ℕ → ProtocolType
  | 0 => .uniswapV2
  | 1 => .uniswapV3
  | 2 => .uniswapV4
  | 3 => .balancerV2
  | 4 => .curveStable
  | 5 => .curveCrypto
  | 6 => .dodo
  | _ => .woofi

/-- The most frequent protocol; on a tie the one of the first hop, then the first slot. -/
def primaryProtocol (edges : List Edge) : ProtocolType :=
  let count := fun slot => edges.countP fun e => e.protocol.toU8 = slot
  let first := (edges.head?.map fun e => e.protocol.toU8).getD 0
  protocolFromSlot ((List.range 8).foldl (fun best slot =>
    if count best < count slot then slot else best) first)

/-- The group of a cycle: the slot of its primary protocol. -/
def FoundCycle.fetchSlot (c : FoundCycle) : ℕ := (primaryProtocol c.edges).toU8

/-- The cycles of a protocol slot, best first. -/
def protocolGroup (cycles : List FoundCycle) (slot : ℕ) : List FoundCycle :=
  (cycles.filter fun c => c.fetchSlot = slot).mergeSort fun a b => (compareCycleExecution a b).isLE

/-- The best cycles of every protocol in turn. -/
def applyProtocolDiverseSelection (cycles : List FoundCycle) (maxCycles : ℕ) : List FoundCycle :=
  let cycles := dedupeCyclesByEdges order cycles
  if maxCycles = 0 ∨ cycles.isEmpty then []
  else
    let active := ((List.range 8).map (protocolGroup cycles)).filter fun g => !g.isEmpty
    let cap := min maxCycles active.flatten.length
    (roundRobin cap cap active []).mergeSort fun a b => (compareCycleExecution a b).isLE

def finalizeEnumeratedCycles (cycles : List FoundCycle) (maxCycles : ℕ) : List FoundCycle :=
  applyProtocolDiverseSelection order cycles maxCycles

/-! ## Pins -/

def touchesPools (pools : List PoolIndex) (c : FoundCycle) : Bool :=
  c.edges.any fun e => pools.contains e.poolIndex

/-- The order of the pinned cycles. -/
def comparePinned (a b : FoundCycle) : Ordering :=
  (compare b.profitable a.profitable).then (compareCycleExecution a b)

/-- The cycles over a pinned pool, in the order in which they are kept. -/
def pinnedCycles (cycles : List FoundCycle) (pinPools : List PoolIndex) : List FoundCycle :=
  (cycles.filter (touchesPools pinPools)).mergeSort fun a b => (comparePinned a b).isLE

/-- Cycles over a pinned pool first, then a selection of the others. -/
def pinCyclesTouchingPools (cycles : List FoundCycle) (pinPools : List PoolIndex) (maxCycles : ℕ)
    (pinsOnly : Bool) : List FoundCycle :=
  if maxCycles = 0 ∨ cycles.isEmpty ∨ pinPools.isEmpty then
    finalizeEnumeratedCycles order cycles maxCycles
  else
    let pinned := pinnedCycles cycles pinPools
    let rest := cycles.filter fun c => !touchesPools pinPools c
    if pinned.isEmpty then
      if pinsOnly then [] else finalizeEnumeratedCycles order rest maxCycles
    else
      let pinned := pinned.take maxCycles
      if pinsOnly then pinned
      else
        appendNew FoundCycle.edges maxCycles pinned
          (finalizeEnumeratedCycles order rest (maxCycles - pinned.length))

/-! ## Dust -/

/-- The first hop over a pair with a reserve below the floor. -/
def v2AnyHopDustReserves (arena : StateArena) (edges : List Edge) : Option ℕ :=
  edges.findIdx? fun edge =>
    decide (edge.protocol = .uniswapV2) &&
      match arena.poolState edge.poolIndex with
      | some (.v2 state) => state.reserve0 < v2MinReserve || state.reserve1 < v2MinReserve
      | _ => false

def pruneDustV2Cycles (arena : StateArena) (cycles : List FoundCycle) : List FoundCycle :=
  cycles.filter fun c => (v2AnyHopDustReserves arena c.edges).isNone

/-! ## What selection keeps -/

section Keeps

variable {order} {cycles : List FoundCycle} {c : FoundCycle} {maxCycles : ℕ}

lemma nodup_dedupeCyclesByEdges (cycles : List FoundCycle) :
    ((dedupeCyclesByEdges order cycles).map FoundCycle.edges).Nodup := by
  have hkept : ((cycles.foldl (keepPreferred FoundCycle.edges cyclePrefersCandidate) []).map
      FoundCycle.edges).Nodup := nodup_foldl_keepPreferred cycles List.nodup_nil
  rw [dedupeCyclesByEdges]
  exact (((List.mergeSort_perm _ _).trans (order.perm _)).map _).nodup_iff.mpr hkept

lemma mem_dedupeCyclesByEdges (h : c ∈ dedupeCyclesByEdges order cycles) : c ∈ cycles := by
  rw [dedupeCyclesByEdges, List.mem_mergeSort, (order.perm _).mem_iff] at h
  exact (mem_foldl_keepPreferred h).resolve_left List.not_mem_nil

/-- Every edge list stays. -/
lemma exists_mem_dedupeCyclesByEdges (h : c ∈ cycles) :
    ∃ c' ∈ dedupeCyclesByEdges order cycles, c'.edges = c.edges := by
  have hkey : c.edges ∈ (cycles.foldl (keepPreferred FoundCycle.edges cyclePrefersCandidate) []).map
      FoundCycle.edges := key_mem_foldl_keepPreferred cycles (.inr (List.mem_map_of_mem h))
  rcases List.mem_map.mp hkey with ⟨c', hc', hedges⟩
  refine ⟨c', ?_, hedges⟩
  rw [dedupeCyclesByEdges, List.mem_mergeSort, (order.perm _).mem_iff]
  exact hc'

/-- Cutting a list into groups by a slot moves its elements. -/
lemma groups_perm {α : Type*} (slot : α → ℕ) (slots : List ℕ) (hslots : slots.Nodup)
    (xs : List α) (hall : ∀ x ∈ xs, slot x ∈ slots) :
    ((slots.map fun s => xs.filter fun x => slot x = s).flatten).Perm xs := by
  induction slots generalizing xs with
  | nil =>
      rw [List.eq_nil_iff_forall_not_mem.mpr fun x hx => List.not_mem_nil (hall x hx)]
      exact .refl _
  | cons s slots ih =>
      have hnew := (List.nodup_cons.mp hslots).1
      -- The other groups are taken from what is not in this one.
      have hothers : (slots.map fun t => xs.filter fun x => slot x = t) =
          slots.map fun t => (xs.filter fun x => !decide (slot x = s)).filter fun x => slot x = t := by
        refine List.map_congr_left fun t ht => ?_
        rw [List.filter_filter]
        refine List.filter_congr fun x _ => ?_
        by_cases hx : slot x = t
        · have hne : t ≠ s := fun heq => hnew (heq ▸ ht)
          simp [hx, hne]
        · simp [hx]
      rw [List.map_cons, List.flatten_cons, hothers]
      refine (List.Perm.append_left _ (ih (List.nodup_cons.mp hslots).2 _ ?_)).trans
        (List.filter_append_perm _ xs)
      intro x hx
      rcases List.mem_filter.mp hx with ⟨hmem, hne⟩
      refine (List.mem_cons.mp (hall x hmem)).resolve_left fun heq => ?_
      simp [heq] at hne

lemma flatten_filter_isEmpty {α : Type*} (groups : List (List α)) :
    (groups.filter fun g => !g.isEmpty).flatten = groups.flatten := by
  induction groups with
  | nil => rfl
  | cons g groups ih => cases g <;> simp [ih]

lemma fetchSlot_mem (c : FoundCycle) : c.fetchSlot ∈ List.range 8 := by
  rw [FoundCycle.fetchSlot]
  cases primaryProtocol c.edges <;> decide

lemma protocolGroups_perm (cycles : List FoundCycle) :
    (((List.range 8).map (protocolGroup cycles)).filter fun g => !g.isEmpty).flatten.Perm cycles := by
  have hslot := fetchSlot_mem
  have hnodup : (List.range 8).Nodup := List.nodup_range
  generalize List.range 8 = slots at hslot hnodup ⊢
  have hsorted : (slots.map (protocolGroup cycles)).flatten.Perm
      ((slots.map fun s => cycles.filter fun c => c.fetchSlot = s).flatten) := by
    refine List.Perm.flatten_congr ?_
    rw [List.forall₂_map_left_iff, List.forall₂_map_right_iff]
    exact List.forall₂_same.mpr fun s _ => List.mergeSort_perm _ _
  rw [flatten_filter_isEmpty]
  exact hsorted.trans (groups_perm FoundCycle.fetchSlot slots hnodup cycles fun c _ => hslot c)

lemma applyProtocolDiverseSelection_subperm (cycles : List FoundCycle) (maxCycles : ℕ) :
    (applyProtocolDiverseSelection order cycles maxCycles).Subperm
      (dedupeCyclesByEdges order cycles) := by
  rw [applyProtocolDiverseSelection]
  split_ifs
  · exact List.nil_subperm
  · refine (List.mergeSort_perm _ _).subperm.trans ?_
    exact (roundRobin_subperm _ _ _ _).trans (protocolGroups_perm _).subperm

/-- The selection is full, or has every cycle. -/
lemma length_applyProtocolDiverseSelection (cycles : List FoundCycle) (maxCycles : ℕ) :
    (applyProtocolDiverseSelection order cycles maxCycles).length =
      min maxCycles (dedupeCyclesByEdges order cycles).length := by
  have hall := (protocolGroups_perm (dedupeCyclesByEdges order cycles)).length_eq
  rw [applyProtocolDiverseSelection]
  dsimp only
  split_ifs with hnothing
  · rcases hnothing with hzero | hempty
    · rw [hzero, Nat.zero_min]
      rfl
    · rw [List.isEmpty_iff.mp hempty]
      exact (Nat.min_zero _).symm
  · rw [List.length_mergeSort, length_roundRobin _ _ _ ?_ (Nat.zero_le _) (Nat.le_add_left _ _), hall]
    · simp
    · intro hmem
      simpa using (List.mem_filter.mp hmem).2

lemma nodup_finalizeEnumeratedCycles (cycles : List FoundCycle) (maxCycles : ℕ) :
    ((finalizeEnumeratedCycles order cycles maxCycles).map FoundCycle.edges).Nodup :=
  nodup_map_of_subperm (applyProtocolDiverseSelection_subperm cycles maxCycles)
    (nodup_dedupeCyclesByEdges cycles)

lemma mem_of_mem_finalize (h : c ∈ finalizeEnumeratedCycles order cycles maxCycles) : c ∈ cycles :=
  mem_dedupeCyclesByEdges ((applyProtocolDiverseSelection_subperm cycles maxCycles).subset h)

lemma length_finalize_le (cycles : List FoundCycle) (maxCycles : ℕ) :
    (finalizeEnumeratedCycles order cycles maxCycles).length ≤ maxCycles :=
  (length_applyProtocolDiverseSelection cycles maxCycles).trans_le (min_le_left _ _)

lemma finalizeEnumeratedCycles_zero (cycles : List FoundCycle) :
    finalizeEnumeratedCycles order cycles 0 = [] := by
  rw [finalizeEnumeratedCycles, applyProtocolDiverseSelection, if_pos (Or.inl rfl)]

/-! ### Pinning -/

variable {pins : List PoolIndex} {pinsOnly : Bool}

lemma pinnedCycles_perm (cycles : List FoundCycle) (pins : List PoolIndex) :
    (pinnedCycles cycles pins).Perm (cycles.filter (touchesPools pins)) :=
  List.mergeSort_perm _ _

lemma mem_pinnedCycles : c ∈ pinnedCycles cycles pins ↔ c ∈ cycles ∧ touchesPools pins c = true := by
  rw [(pinnedCycles_perm cycles pins).mem_iff, List.mem_filter]

lemma nodup_pinnedCycles (h : ((cycles.filter (touchesPools pins)).map FoundCycle.edges).Nodup)
    (n : ℕ) : (((pinnedCycles cycles pins).take n).map FoundCycle.edges).Nodup :=
  ((List.take_sublist n _).map _).nodup (((pinnedCycles_perm cycles pins).map _).nodup_iff.mpr h)

lemma nodup_pinCyclesTouchingPools
    (h : ((cycles.filter (touchesPools pins)).map FoundCycle.edges).Nodup) :
    ((pinCyclesTouchingPools order cycles pins maxCycles pinsOnly).map FoundCycle.edges).Nodup := by
  rw [pinCyclesTouchingPools]
  dsimp only
  split_ifs
  · exact nodup_finalizeEnumeratedCycles _ _
  · exact List.nodup_nil
  · exact nodup_finalizeEnumeratedCycles _ _
  · exact nodup_pinnedCycles h maxCycles
  · exact nodup_appendNew _ (nodup_pinnedCycles h maxCycles)

lemma mem_of_mem_pin (h : c ∈ pinCyclesTouchingPools order cycles pins maxCycles pinsOnly) :
    c ∈ cycles := by
  have hpinned : c ∈ (pinnedCycles cycles pins).take maxCycles → c ∈ cycles := fun hmem =>
    (mem_pinnedCycles.mp (List.mem_of_mem_take hmem)).1
  rw [pinCyclesTouchingPools] at h
  dsimp only at h
  split_ifs at h
  · exact mem_of_mem_finalize h
  · exact absurd h List.not_mem_nil
  · exact (List.mem_filter.mp (mem_of_mem_finalize h)).1
  · exact hpinned h
  · rcases mem_appendNew h with hmem | hmem
    · exact hpinned hmem
    · exact (List.mem_filter.mp (mem_of_mem_finalize hmem)).1

/-- When the pins fill the list, nothing is added to them. -/
lemma fill_of_full {rest : List FoundCycle} (h : maxCycles ≤ (pinnedCycles cycles pins).length) :
    appendNew FoundCycle.edges maxCycles ((pinnedCycles cycles pins).take maxCycles)
        (finalizeEnumeratedCycles order rest
          (maxCycles - ((pinnedCycles cycles pins).take maxCycles).length)) =
      (pinnedCycles cycles pins).take maxCycles := by
  rw [List.length_take_of_le h, Nat.sub_self, finalizeEnumeratedCycles_zero]
  rfl

lemma length_pin_le (cycles : List FoundCycle) (pins : List PoolIndex) (maxCycles : ℕ)
    (pinsOnly : Bool) :
    (pinCyclesTouchingPools order cycles pins maxCycles pinsOnly).length ≤ maxCycles := by
  rw [pinCyclesTouchingPools]
  dsimp only
  split_ifs
  · exact length_finalize_le _ _
  · exact Nat.zero_le _
  · exact length_finalize_le _ _
  · exact List.length_take_le _ _
  · rcases le_or_gt maxCycles (pinnedCycles cycles pins).length with hfull | hroom
    · rw [fill_of_full hfull]
      exact List.length_take_le _ _
    · refine length_appendNew_le _ ?_
      rw [List.take_of_length_le hroom.le]
      exact hroom

/-- A cycle over a pinned pool is dropped only when the list is full of such cycles. -/
lemma pin_drops (hc : c ∈ cycles) (htouch : touchesPools pins c = true)
    (hdrop : c ∉ pinCyclesTouchingPools order cycles pins maxCycles pinsOnly) :
    pinCyclesTouchingPools order cycles pins maxCycles pinsOnly =
        (pinnedCycles cycles pins).take maxCycles ∧
      maxCycles ≤ (pinnedCycles cycles pins).length := by
  have hmem : c ∈ pinnedCycles cycles pins := mem_pinnedCycles.mpr ⟨hc, htouch⟩
  have hfull : c ∉ (pinnedCycles cycles pins).take maxCycles →
      maxCycles ≤ (pinnedCycles cycles pins).length := by
    intro hout
    by_contra hroom
    rw [List.take_of_length_le (not_le.mp hroom).le] at hout
    exact hout hmem
  rw [pinCyclesTouchingPools] at hdrop ⊢
  dsimp only at hdrop ⊢
  split_ifs at hdrop ⊢ with hnothing hnone
  · rcases hnothing with hzero | hempty | hempty
    · rw [hzero, finalizeEnumeratedCycles_zero]
      exact ⟨rfl, Nat.zero_le _⟩
    · rw [List.isEmpty_iff.mp hempty] at hc
      cases hc
    · rw [touchesPools, List.isEmpty_iff.mp hempty] at htouch
      simp at htouch
  · rw [List.isEmpty_iff.mp hnone] at hmem
    cases hmem
  · rw [List.isEmpty_iff.mp hnone] at hmem
    cases hmem
  · exact ⟨rfl, hfull hdrop⟩
  · have hlen := hfull fun hin => hdrop (subset_appendNew _ hin)
    exact ⟨fill_of_full hlen, hlen⟩

end Keeps

end PolygonArb

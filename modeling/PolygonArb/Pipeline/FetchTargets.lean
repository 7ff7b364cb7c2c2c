import Mathlib.Data.Prod.Lex
import PolygonArb.Lib.BiasedRounds
import PolygonArb.Lib.BoundedHeap
import PolygonArb.Pipeline.GraphGate
import PolygonArb.Services.StateCache

/-!
# The pools to fetch

`select_fetch_targets` of `pipeline/fetcher.rs`: the discovered pools that the cache has not, or has too old,
are the candidates.  Those on the priority list come first; of the others each protocol keeps its best in a
bounded heap (`Lib/BoundedHeap.lean`), and the protocols are served in rounds, some of them several at a turn
(`Lib/BiasedRounds.lean`).
-/

namespace PolygonArb

open BoundedHeap BiasedRounds

/-- A discovered pool with the block it was created in. -/
structure IndexedPool extends DiscoveredPool where
  createdBlock : ℕ

/-- The state cache with the ages at which its entries are fetched again. -/
structure FetchCache where
  store : StateStore
  staleTradableTtl : ℕ
  invalidRetryTtl : ℕ

/-- A pool with its fetch class. -/
abbrev FetchRow := IndexedPool × ℕ

/-! ## Candidates -/

def isFetchableProtocol : ProtocolType → Bool
  | .uniswapV2 | .uniswapV3 | .uniswapV4 | .balancerV2 | .curveStable | .curveCrypto | .dodo | .woofi => true

def fetchClassForEntry (cache : FetchCache) (now : ℕ) (entry : CachedEntry) : Option ℕ :=
  if entry.state.isTradable then
    if cache.staleTradableTtl < now - entry.updatedAt then some 3 else none
  else if cache.invalidRetryTtl < now - entry.updatedAt then some 2
  else none

/-- `for_each_fetch_candidate`, over the fetchable pools. -/
def fetchCandidates (cache : FetchCache) (now : ℕ) (pools : List IndexedPool) : List FetchRow :=
  (pools.filter fun pool => isFetchableProtocol pool.protocol).filterMap fun pool =>
    match cache.store.inner.lookup pool.address with
    | none => some (pool, 1)
    | some entry => (fetchClassForEntry cache now entry).map fun fetchClass => (pool, fetchClass)

/-! ## Ranks -/

def classRank : ℕ → ProtocolType → ℕ
  | 3, _ => 0
  | 1, .dodo => 4
  | 2, .dodo => 5
  | 2, _ => 3
  | c, _ => c

/-- The order of `RankedPool`: the class, pools without a hub token later, newer pools first, the address. -/
abbrev FetchKey := ℕ ×ₗ Bool ×ₗ ℕᵒᵈ ×ₗ ℕ

def rankedPool (row : FetchRow) : FetchKey :=
  toLex (classRank row.2 row.1.protocol,
    toLex (!row.1.tokens.any isPolygonHubToken,
      toLex (OrderDual.toDual row.1.createdBlock, row.1.address.toNat)))

/-! ## The selection -/

def fetchableProtocols : List ProtocolType :=
  [.uniswapV2, .uniswapV3, .uniswapV4, .balancerV2, .curveStable, .curveCrypto, .dodo, .woofi]

def v4FetchBias : ℕ := 4

def clmmMultiFetchBias : ℕ := 2

def fetchBias : ProtocolType → ℕ
  | .uniswapV4 => v4FetchBias
  | .uniswapV3 | .balancerV2 | .curveStable | .curveCrypto => clmmMultiFetchBias
  | _ => 1

/-- The priority candidates and the heap of each protocol. -/
structure FetchQueues where
  priority : List FetchRow
  perProtocol : ProtocolType → List FetchRow

def addressOf (row : FetchRow) : Address := row.1.address

def enqueueFetchCandidate (priority : List Address) (maxPools : ℕ) (queues : FetchQueues) (row : FetchRow) :
    FetchQueues :=
  if addressOf row ∈ priority then { queues with priority := queues.priority ++ [row] }
  else
    { queues with
      perProtocol := Function.update queues.perProtocol row.1.protocol
        (offer rankedPool maxPools (queues.perProtocol row.1.protocol) row) }

/-- The loop over the priority candidates. -/
def takePriority (maxPools : ℕ) : List FetchRow → List FetchRow → List FetchRow
  | [], out => out
  | row :: rest, out =>
      if out.length = maxPools then out
      else if addressOf row ∈ out.map addressOf then takePriority maxPools rest out
      else takePriority maxPools rest (out ++ [row])

/-- A heap is sorted as it is, and a full priority list leaves no round to run. -/
def finalizeFetchTargets (maxPools : ℕ) (queues : FetchQueues) : List FetchRow :=
  rounds addressOf maxPools (fetchableProtocols.map fun p => (fetchBias p, queues.perProtocol p))
    (takePriority maxPools queues.priority [])

/-- The targets with their classes. -/
def fetchTargetRows (pools : List IndexedPool) (cache : FetchCache) (now maxPools : ℕ)
    (priority : List Address) : List FetchRow :=
  if maxPools = 0 then []
  else
    finalizeFetchTargets maxPools
      ((fetchCandidates cache now pools).foldl (enqueueFetchCandidate priority maxPools) ⟨[], fun _ => []⟩)

def selectFetchTargets (pools : List IndexedPool) (cache : FetchCache) (now maxPools : ℕ)
    (priority : List Address) : List IndexedPool :=
  (fetchTargetRows pools cache now maxPools priority).map Prod.fst

/-! ## The queues -/

section Queues

variable {priority : List Address} {maxPools : ℕ}

def priorityRows (priority : List Address) (rows : List FetchRow) : List FetchRow :=
  rows.filter fun row => decide (addressOf row ∈ priority)

/-- The rows of a protocol that are not on the priority list. -/
def rowsOf (priority : List Address) (rows : List FetchRow) (p : ProtocolType) : List FetchRow :=
  rows.filter fun row => decide (addressOf row ∉ priority) && decide (row.1.protocol = p)

lemma mem_rowsOf {rows : List FetchRow} {p : ProtocolType} {row : FetchRow} :
    row ∈ rowsOf priority rows p ↔ row ∈ rows ∧ addressOf row ∉ priority ∧ row.1.protocol = p := by
  rw [rowsOf, List.mem_filter, Bool.and_eq_true, decide_eq_true_eq, decide_eq_true_eq]

lemma foldl_enqueue (rows : List FetchRow) :
    rows.foldl (enqueueFetchCandidate priority maxPools) ⟨[], fun _ => []⟩ =
      ⟨priorityRows priority rows, fun p => heapOf rankedPool maxPools (rowsOf priority rows p)⟩ := by
  have hrun : ∀ (rows done : List FetchRow),
      rows.foldl (enqueueFetchCandidate priority maxPools)
          ⟨priorityRows priority done, fun p => heapOf rankedPool maxPools (rowsOf priority done p)⟩ =
        ⟨priorityRows priority (done ++ rows),
          fun p => heapOf rankedPool maxPools (rowsOf priority (done ++ rows) p)⟩ := by
    intro rows
    induction rows with
    | nil =>
        intro done
        rw [List.append_nil]
        rfl
    | cons row rows ih =>
        intro done
        have hassoc : done ++ row :: rows = done ++ [row] ++ rows := by
          rw [List.append_assoc, List.singleton_append]
        rw [List.foldl_cons, hassoc, ← ih (done ++ [row])]
        refine congrArg (rows.foldl _) ?_
        rw [enqueueFetchCandidate]
        split_ifs with hpriority
        · simp [priorityRows, rowsOf, hpriority]
        · simp only [priorityRows, rowsOf, List.filter_append, FetchQueues.mk.injEq]
          refine ⟨?_, ?_⟩
          · simp [hpriority]
          · funext p
            rcases eq_or_ne p row.1.protocol with rfl | hother
            · rw [Function.update_self]
              simp [hpriority, heapOf, List.foldl_append]
            · rw [Function.update_of_ne hother]
              simp [hother.symm]
  exact hrun rows []

/-- The loop over the priority candidates takes the first ones with distinct addresses. -/
lemma takePriority_spec (rows : List FetchRow) :
    (takePriority maxPools rows []).length ≤ maxPools ∧
      ((takePriority maxPools rows []).map addressOf).Nodup ∧
      (∀ row ∈ takePriority maxPools rows [], row ∈ rows) ∧
      ((takePriority maxPools rows []).length < maxPools →
        ∀ row ∈ rows, addressOf row ∈ (takePriority maxPools rows []).map addressOf) := by
  have hrun : ∀ (rest done out : List FetchRow), out.length ≤ maxPools → (out.map addressOf).Nodup →
      (∀ row ∈ out, row ∈ done) → (∀ row ∈ done, addressOf row ∈ out.map addressOf) →
      (takePriority maxPools rest out).length ≤ maxPools ∧
        ((takePriority maxPools rest out).map addressOf).Nodup ∧
        (∀ row ∈ takePriority maxPools rest out, row ∈ done ++ rest) ∧
        ((takePriority maxPools rest out).length < maxPools →
          ∀ row ∈ done ++ rest, addressOf row ∈ (takePriority maxPools rest out).map addressOf) := by
    intro rest
    induction rest with
    | nil =>
        intro done out hlength hnodup hsub hall
        rw [List.append_nil]
        exact ⟨hlength, hnodup, hsub, fun _ => hall⟩
    | cons row rest ih =>
        intro done out hlength hnodup hsub hall
        have hassoc : done ++ row :: rest = done ++ [row] ++ rest := by
          rw [List.append_assoc, List.singleton_append]
        rw [takePriority, hassoc]
        split_ifs with hfull hseen
        · refine ⟨hlength, hnodup, fun row' hrow' => ?_, fun hroom => absurd hfull hroom.ne⟩
          exact List.mem_append_left _ (List.mem_append_left _ (hsub row' hrow'))
        · refine ih (done ++ [row]) out hlength hnodup ?_ ?_
          · exact fun row' hrow' => List.mem_append_left _ (hsub row' hrow')
          · intro row' hrow'
            rcases List.mem_append.mp hrow' with hold | hself
            · exact hall row' hold
            · rwa [List.mem_singleton.mp hself]
        · refine ih (done ++ [row]) (out ++ [row]) ?_ ?_ ?_ ?_
          · rw [List.length_append, List.length_singleton]
            omega
          · rw [List.map_append, List.nodup_append']
            exact ⟨hnodup, List.nodup_singleton _, List.disjoint_singleton.mpr hseen⟩
          · intro row' hrow'
            rcases List.mem_append.mp hrow' with hold | hself
            · exact List.mem_append_left _ (hsub row' hold)
            · exact List.mem_append_right _ hself
          · intro row' hrow'
            rw [List.map_append, List.mem_append]
            rcases List.mem_append.mp hrow' with hold | hself
            · exact Or.inl (hall row' hold)
            · exact Or.inr (List.mem_map_of_mem hself)
  have hstart := hrun rows [] [] (Nat.zero_le _) List.nodup_nil (fun _ hrow => hrow) (by simp)
  rwa [List.nil_append] at hstart

end Queues

/-! ## The promise -/

section Targets

variable (pools : List IndexedPool) (cache : FetchCache) (now maxPools : ℕ) (priority : List Address)

/-- The promise of the selection: at most `maxPools` candidates with distinct addresses, the priority ones
first, of each protocol the best ones, and all candidates if there is room left. -/
structure TargetsOk (rows : List FetchRow) : Prop where
  cap : rows.length ≤ maxPools
  distinct : (rows.map addressOf).Nodup
  candidate : ∀ row ∈ rows, row ∈ fetchCandidates cache now pools
  priorityFirst : ∃ first rest, rows = first ++ rest ∧ (∀ row ∈ first, addressOf row ∈ priority) ∧
    (∀ row ∈ rest, addressOf row ∉ priority) ∧
    (first.length < maxPools → ∀ row ∈ fetchCandidates cache now pools, addressOf row ∈ priority →
      addressOf row ∈ first.map addressOf)
  ranked : ∀ row ∈ rows, addressOf row ∉ priority → ∀ row' ∈ fetchCandidates cache now pools,
    addressOf row' ∉ priority → row'.1.protocol = row.1.protocol → rankedPool row' < rankedPool row →
      addressOf row' ∈ rows.map addressOf
  complete : rows.length < maxPools → ∀ row ∈ fetchCandidates cache now pools,
    addressOf row ∈ rows.map addressOf

/-- Every protocol with its bias and its best candidates, best first. -/
def fetchSlots : List (ℕ × List FetchRow) :=
  fetchableProtocols.map fun p =>
    (fetchBias p, heapOf rankedPool maxPools (rowsOf priority (fetchCandidates cache now pools) p))

/-- The first priority candidates. -/
def fetchStart : List FetchRow :=
  takePriority maxPools (priorityRows priority (fetchCandidates cache now pools)) []

/-- The picks of the first `n` turns, if there were no cap on the number of pools. -/
def fetchSchedule (n : ℕ) : List FetchRow :=
  schedule addressOf (fetchSlots pools cache now maxPools priority)
    (fetchStart pools cache now maxPools priority) n

/-- A candidate on the priority list, or one of the best `maxPools` of its protocol. -/
def InReach (row : FetchRow) : Prop :=
  addressOf row ∈ priority ∨ (rowsOf priority (fetchCandidates cache now pools) row.1.protocol).countP
    (fun row' => decide (rankedPool row' < rankedPool row)) < maxPools

instance (row : FetchRow) : Decidable (InReach pools cache now maxPools priority row) :=
  inferInstanceAs (Decidable (addressOf row ∈ priority ∨
    (rowsOf priority (fetchCandidates cache now pools) row.1.protocol).countP
      (fun row' => decide (rankedPool row' < rankedPool row)) < maxPools))

def addressesInReach : Finset Address :=
  (((fetchCandidates cache now pools).filter fun row =>
    decide (InReach pools cache now maxPools priority row)).map addressOf).toFinset

variable {pools cache now maxPools priority}

lemma addressOf_of_rankedPool {row row' : FetchRow} (h : rankedPool row = rankedPool row') :
    addressOf row = addressOf row' := by
  have haddress := congrArg (fun key : FetchKey => (ofLex (ofLex (ofLex key).2).2).2) h
  exact BitVec.eq_of_toNat_eq haddress

lemma mem_fetchableProtocols (p : ProtocolType) : p ∈ fetchableProtocols := by
  cases p <;> decide

lemma fetchBias_pos (p : ProtocolType) : 0 < fetchBias p := by
  cases p <;> decide

lemma fetchTargetRows_eq (hmax : maxPools ≠ 0) : fetchTargetRows pools cache now maxPools priority =
    rounds addressOf maxPools (fetchSlots pools cache now maxPools priority)
      (fetchStart pools cache now maxPools priority) := by
  rw [fetchTargetRows, if_neg hmax, foldl_enqueue]
  rfl

lemma fetchSlots_bias : ∀ slot ∈ fetchSlots pools cache now maxPools priority, 0 < slot.1 := by
  intro slot hslot
  rcases List.mem_map.mp hslot with ⟨p, -, rfl⟩
  exact fetchBias_pos p

/-- A row of a heap is a candidate of its protocol with few better ones. -/
lemma mem_heap {p : ProtocolType} {row : FetchRow}
    (h : row ∈ heapOf rankedPool maxPools (rowsOf priority (fetchCandidates cache now pools) p)) :
    row ∈ fetchCandidates cache now pools ∧ addressOf row ∉ priority ∧ row.1.protocol = p ∧
      InReach pools cache now maxPools priority row := by
  have hkept := @kept_heapOf _ _ _ rankedPool maxPools
    (rowsOf priority (fetchCandidates cache now pools) p)
  rcases hkept.dropped with ⟨rest, hperm, -, -⟩
  have hrow := hperm.mem_iff.mp (List.mem_append_left rest h)
  rcases mem_rowsOf.mp hrow with ⟨hmem, hnot, hprotocol⟩
  refine ⟨hmem, hnot, hprotocol, Or.inr ?_⟩
  rw [hprotocol]
  exact (hkept.mem_iff hrow).mp ⟨row, h, rfl⟩

/-- A candidate in reach has its address in the heap of its protocol. -/
lemma exists_mem_heap {row : FetchRow} (hmem : row ∈ fetchCandidates cache now pools)
    (hnot : addressOf row ∉ priority) (h : InReach pools cache now maxPools priority row) :
    ∃ x ∈ heapOf rankedPool maxPools
      (rowsOf priority (fetchCandidates cache now pools) row.1.protocol), rankedPool x = rankedPool row := by
  have hkept := @kept_heapOf _ _ _ rankedPool maxPools
    (rowsOf priority (fetchCandidates cache now pools) row.1.protocol)
  exact (hkept.mem_iff (mem_rowsOf.mpr ⟨hmem, hnot, rfl⟩)).mpr (h.resolve_left hnot)

lemma fetchStart_spec : (fetchStart pools cache now maxPools priority).length ≤ maxPools ∧
    ((fetchStart pools cache now maxPools priority).map addressOf).Nodup ∧
    (∀ row ∈ fetchStart pools cache now maxPools priority,
      row ∈ fetchCandidates cache now pools ∧ addressOf row ∈ priority) ∧
    ((fetchStart pools cache now maxPools priority).length < maxPools →
      ∀ row ∈ fetchCandidates cache now pools, addressOf row ∈ priority →
        addressOf row ∈ (fetchStart pools cache now maxPools priority).map addressOf) := by
  rcases @takePriority_spec maxPools (priorityRows priority (fetchCandidates cache now pools))
    with ⟨hlength, hnodup, hsub, hall⟩
  refine ⟨hlength, hnodup, fun row hrow => ?_, fun hroom row hrow hpriority => ?_⟩
  · have hmem := List.mem_filter.mp (hsub row hrow)
    exact ⟨hmem.1, of_decide_eq_true hmem.2⟩
  · exact hall hroom row (List.mem_filter.mpr ⟨hrow, decide_eq_true hpriority⟩)

/-- Where a target comes from. -/
lemma mem_fetchTargetRows (hmax : maxPools ≠ 0) {row : FetchRow}
    (h : row ∈ fetchTargetRows pools cache now maxPools priority) :
    row ∈ fetchStart pools cache now maxPools priority ∨
      ∃ pre post, heapOf rankedPool maxPools
          (rowsOf priority (fetchCandidates cache now pools) row.1.protocol) = pre ++ row :: post ∧
        ∀ x ∈ pre, addressOf x ∈ (fetchTargetRows pools cache now maxPools priority).map addressOf := by
  rw [fetchTargetRows_eq hmax] at h ⊢
  rcases (rounds_spec fetchSlots_bias fetchStart_spec.2.1).2.2.1 row h with
    hstart | ⟨slot, hslot, pre, post, hqueue, hpre⟩
  · exact Or.inl hstart
  · rcases List.mem_map.mp hslot with ⟨p, -, rfl⟩
    dsimp only at hqueue
    have hheap : row ∈ heapOf rankedPool maxPools
        (rowsOf priority (fetchCandidates cache now pools) p) := by
      rw [hqueue]
      exact List.mem_append_right _ List.mem_cons_self
    rw [(mem_heap hheap).2.2.1]
    exact Or.inr ⟨pre, post, hqueue, hpre⟩

/-- All but the cap and the last part of the promise hold of every selection. -/
lemma targets_ordered (hmax : maxPools ≠ 0) :
    ((fetchTargetRows pools cache now maxPools priority).map addressOf).Nodup ∧
    (∀ row ∈ fetchTargetRows pools cache now maxPools priority, row ∈ fetchCandidates cache now pools ∧
      InReach pools cache now maxPools priority row) ∧
    (∃ rest, fetchTargetRows pools cache now maxPools priority =
        fetchStart pools cache now maxPools priority ++ rest ∧ ∀ row ∈ rest, addressOf row ∉ priority) := by
  have hspec := @rounds_spec _ _ _ addressOf (fetchSlots pools cache now maxPools priority)
    (fetchStart pools cache now maxPools priority) maxPools fetchSlots_bias fetchStart_spec.2.1
  rw [← fetchTargetRows_eq hmax] at hspec
  rcases hspec with ⟨⟨rest, hrest⟩, hnodup, -, -⟩
  have hsource : ∀ row ∈ fetchTargetRows pools cache now maxPools priority,
      row ∈ fetchStart pools cache now maxPools priority ∨
        row ∈ heapOf rankedPool maxPools
          (rowsOf priority (fetchCandidates cache now pools) row.1.protocol) := by
    intro row hrow
    rcases mem_fetchTargetRows hmax hrow with hstart | ⟨pre, post, hqueue, -⟩
    · exact Or.inl hstart
    · right
      rw [hqueue]
      exact List.mem_append_right _ List.mem_cons_self
  refine ⟨hnodup, fun row hrow => ?_, rest, hrest.symm, fun row hrow => ?_⟩
  · rcases hsource row hrow with hstart | hheap
    · have hprior := fetchStart_spec.2.2.1 row hstart
      exact ⟨hprior.1, Or.inl hprior.2⟩
    · exact ⟨(mem_heap hheap).1, (mem_heap hheap).2.2.2⟩
  · have hmem : row ∈ fetchTargetRows pools cache now maxPools priority :=
      hrest ▸ List.mem_append_right _ hrow
    rcases hsource row hmem with hstart | hheap
    · rw [← hrest, List.map_append, List.nodup_append'] at hnodup
      exact absurd (List.mem_map_of_mem hrow) (hnodup.2.2 (List.mem_map_of_mem hstart))
    · exact (mem_heap hheap).2.1

/-- A better candidate of the same protocol is a target as well. -/
lemma targets_ranked (hmax : maxPools ≠ 0) {row row' : FetchRow}
    (hrow : row ∈ fetchTargetRows pools cache now maxPools priority) (hnot : addressOf row ∉ priority)
    (hrow' : row' ∈ fetchCandidates cache now pools) (hnot' : addressOf row' ∉ priority)
    (hprotocol : row'.1.protocol = row.1.protocol) (hbetter : rankedPool row' < rankedPool row) :
    addressOf row' ∈ (fetchTargetRows pools cache now maxPools priority).map addressOf := by
  rcases mem_fetchTargetRows hmax hrow with hstart | ⟨pre, post, hqueue, hpre⟩
  · exact absurd (fetchStart_spec.2.2.1 row hstart).2 hnot
  have hheap : row ∈ heapOf rankedPool maxPools
      (rowsOf priority (fetchCandidates cache now pools) row.1.protocol) := by
    rw [hqueue]
    exact List.mem_append_right _ List.mem_cons_self
  have hreach : InReach pools cache now maxPools priority row' := by
    refine Or.inr (lt_of_le_of_lt ?_ ((mem_heap hheap).2.2.2.resolve_left hnot))
    rw [hprotocol]
    refine List.countP_mono_left fun x _ hx => ?_
    exact decide_eq_true ((of_decide_eq_true hx).trans hbetter)
  rcases exists_mem_heap hrow' hnot' hreach with ⟨x, hx, hkey⟩
  rw [hprotocol, hqueue] at hx
  have hsorted := (@kept_heapOf _ _ _ rankedPool maxPools
    (rowsOf priority (fetchCandidates cache now pools) row.1.protocol)).sorted
  rw [hqueue] at hsorted
  have htail := List.pairwise_cons.mp (List.pairwise_append.mp hsorted).2.1
  rw [← addressOf_of_rankedPool hkey]
  rcases List.mem_append.mp hx with hbefore | hafter
  · exact hpre x hbefore
  · -- the heap is sorted, so what is better stands before
    rcases List.mem_cons.mp hafter with rfl | hpost
    · exact absurd (hkey ▸ hbetter) (lt_irrefl _)
    · exact absurd (hkey ▸ htail.1 x hpost) (not_le.mpr hbetter)

/-- With room left, all candidates in reach are targets. -/
lemma targets_in_reach (hmax : maxPools ≠ 0)
    (hroom : (fetchTargetRows pools cache now maxPools priority).length < maxPools) {row : FetchRow}
    (hrow : row ∈ fetchCandidates cache now pools) (h : InReach pools cache now maxPools priority row) :
    addressOf row ∈ (fetchTargetRows pools cache now maxPools priority).map addressOf := by
  have hspec := @rounds_spec _ _ _ addressOf (fetchSlots pools cache now maxPools priority)
    (fetchStart pools cache now maxPools priority) maxPools fetchSlots_bias fetchStart_spec.2.1
  rw [← fetchTargetRows_eq hmax] at hspec
  rcases hspec with ⟨hgrows, -, -, hpassed⟩
  by_cases hpriority : addressOf row ∈ priority
  · have hstart := fetchStart_spec.2.2.2 (hgrows.length_le.trans_lt hroom) row hrow hpriority
    exact (hgrows.map addressOf).subset hstart
  · rcases exists_mem_heap hrow hpriority h with ⟨x, hx, hkey⟩
    rw [← addressOf_of_rankedPool hkey]
    exact hpassed hroom _ (List.mem_map_of_mem (mem_fetchableProtocols row.1.protocol)) x hx

lemma mem_addressesInReach {a : Address} : a ∈ addressesInReach pools cache now maxPools priority ↔
    ∃ row ∈ fetchCandidates cache now pools, InReach pools cache now maxPools priority row ∧
      addressOf row = a := by
  rw [addressesInReach, List.mem_toFinset, List.mem_map]
  simp only [List.mem_filter, decide_eq_true_eq, and_assoc]

/-- Candidates are left out with room left exactly when the ones in reach are few and not all. -/
lemma complete_iff (hmax : maxPools ≠ 0) :
    ((fetchTargetRows pools cache now maxPools priority).length < maxPools →
      ∀ row ∈ fetchCandidates cache now pools,
        addressOf row ∈ (fetchTargetRows pools cache now maxPools priority).map addressOf) ↔
    (maxPools ≤ (addressesInReach pools cache now maxPools priority).card ∨
      ∀ row ∈ fetchCandidates cache now pools,
        addressOf row ∈ addressesInReach pools cache now maxPools priority) := by
  rcases @targets_ordered pools cache now maxPools priority hmax with ⟨hnodup, hsub, -⟩
  have hcard : ((fetchTargetRows pools cache now maxPools priority).map addressOf).toFinset.card =
      (fetchTargetRows pools cache now maxPools priority).length := by
    rw [List.toFinset_card_of_nodup hnodup, List.length_map]
  have hreach : ∀ a ∈ (fetchTargetRows pools cache now maxPools priority).map addressOf,
      a ∈ addressesInReach pools cache now maxPools priority := by
    intro a ha
    rcases List.mem_map.mp ha with ⟨row, hrow, rfl⟩
    exact mem_addressesInReach.mpr ⟨row, (hsub row hrow).1, (hsub row hrow).2, rfl⟩
  constructor
  · intro hcomplete
    rcases Nat.lt_or_ge (addressesInReach pools cache now maxPools priority).card maxPools with hfew | hmany
    · right
      have hle := Finset.card_le_card fun a ha => hreach a (List.mem_toFinset.mp ha)
      rw [hcard] at hle
      exact fun row hrow => hreach _ (hcomplete (hle.trans_lt hfew) row hrow)
    · exact Or.inl hmany
  · intro hcover hroom row hrow
    have hpicked : ∀ a ∈ addressesInReach pools cache now maxPools priority,
        a ∈ (fetchTargetRows pools cache now maxPools priority).map addressOf := by
      intro a ha
      rcases mem_addressesInReach.mp ha with ⟨row, hrow, hin, rfl⟩
      exact targets_in_reach hmax hroom hrow hin
    rcases hcover with hmany | hall
    · have hle := Finset.card_le_card fun a ha => List.mem_toFinset.mpr (hpicked a ha)
      rw [hcard] at hle
      omega
    · exact hpicked _ (hall row hrow)

lemma targetsOk_iff :
    TargetsOk pools cache now maxPools priority (fetchTargetRows pools cache now maxPools priority) ↔
      (∀ n, (fetchSchedule pools cache now maxPools priority n).length < maxPools →
        (fetchSchedule pools cache now maxPools priority (n + 1)).length ≤ maxPools) ∧
      (maxPools ≤ (addressesInReach pools cache now maxPools priority).card ∨
        ∀ row ∈ fetchCandidates cache now pools,
          addressOf row ∈ addressesInReach pools cache now maxPools priority) := by
  rcases eq_or_ne maxPools 0 with rfl | hmax
  · have hnone : fetchTargetRows pools cache now 0 priority = [] := if_pos rfl
    rw [hnone]
    refine iff_of_true ⟨le_rfl, List.nodup_nil, ?_, ⟨[], [], rfl, ?_, ?_, ?_⟩, ?_, ?_⟩
      ⟨fun n h => absurd h (Nat.not_lt_zero _), Or.inl (Nat.zero_le _)⟩ <;> simp
  have hcap := @length_rounds_le_iff _ _ _ addressOf (fetchSlots pools cache now maxPools priority)
    (fetchStart pools cache now maxPools priority) maxPools fetchSlots_bias fetchStart_spec.1
  rw [← fetchTargetRows_eq hmax] at hcap
  constructor
  · intro h
    exact ⟨hcap.mp h.cap, (complete_iff hmax).mp h.complete⟩
  · rintro ⟨hturns, hcover⟩
    rcases @targets_ordered pools cache now maxPools priority hmax with ⟨hnodup, hsub, rest, hrest, hnot⟩
    refine ⟨hcap.mpr hturns, hnodup, fun row hrow => (hsub row hrow).1, ?_, ?_, ?_⟩
    · refine ⟨_, rest, hrest, fun row hrow => (fetchStart_spec.2.2.1 row hrow).2, hnot, ?_⟩
      exact fetchStart_spec.2.2.2
    · intro row hrow hrownot row' hrow' hrownot'
      exact targets_ranked hmax hrow hrownot hrow' hrownot'
    · exact (complete_iff hmax).mpr hcover

/-! ### Candidates with distinct addresses -/

section Distinct

variable (pools cache now maxPools priority) in
/-- The picks of the first `n` turns, counted: of the priority list, and of each protocol up to its bias in
each of its turns. -/
def fetchCount (n : ℕ) : ℕ :=
  min maxPools (priorityRows priority (fetchCandidates cache now pools)).length +
    (fetchableProtocols.zipIdx.map fun (p, s) =>
      min (min maxPools (rowsOf priority (fetchCandidates cache now pools) p).length)
        (fetchBias p * ((n + (7 - s)) / 8))).sum

variable (hdistinct : ((fetchCandidates cache now pools).map addressOf).Nodup)

lemma mem_queueAt {s : ℕ} {row : FetchRow}
    (h : row ∈ queueAt (fetchSlots pools cache now maxPools priority) s) :
    ∃ p, fetchableProtocols[s]? = some p ∧
      row ∈ heapOf rankedPool maxPools (rowsOf priority (fetchCandidates cache now pools) p) := by
  rw [queueAt, fetchSlots, List.getElem?_map] at h
  cases hp : fetchableProtocols[s]? with
  | none =>
      rw [hp] at h
      cases h
  | some p =>
      rw [hp] at h
      exact ⟨p, rfl, h⟩

include hdistinct

lemma nodup_heap (p : ProtocolType) :
    ((heapOf rankedPool maxPools (rowsOf priority (fetchCandidates cache now pools) p)).map addressOf).Nodup := by
  rcases (@kept_heapOf _ _ _ rankedPool maxPools (rowsOf priority (fetchCandidates cache now pools) p)).dropped
    with ⟨rest, hperm, -, -⟩
  have hrows : ((rowsOf priority (fetchCandidates cache now pools) p).map addressOf).Nodup :=
    hdistinct.sublist (List.filter_sublist.map addressOf)
  have hall := (hperm.map addressOf).nodup_iff.mpr hrows
  rw [List.map_append] at hall
  exact (List.nodup_append'.mp hall).1

lemma distinct_fetchSlots : Distinct addressOf (fetchSlots pools cache now maxPools priority)
    (fetchStart pools cache now maxPools priority) := by
  have hinj := List.inj_on_of_nodup_map hdistinct
  refine ⟨fun s => ?_, fun s s' x hx y hy heq => ?_, fun s x hx hmem => ?_⟩
  · rw [queueAt, fetchSlots, List.getElem?_map]
    cases fetchableProtocols[s]? with
    | none => exact List.nodup_nil
    | some p => exact nodup_heap hdistinct p
  · rcases mem_queueAt hx with ⟨p, hp, hxheap⟩
    rcases mem_queueAt hy with ⟨p', hp', hyheap⟩
    have hsame := hinj (mem_heap hxheap).1 (mem_heap hyheap).1 heq
    subst hsame
    rw [← (mem_heap hxheap).2.2.1, (mem_heap hyheap).2.2.1] at hp
    have hs := (List.getElem?_eq_some_iff.mp hp).1
    exact (List.getElem?_inj hs (by decide)).mp (hp.trans hp'.symm)
  · rcases mem_queueAt hx with ⟨p, -, hxheap⟩
    rcases List.mem_map.mp hmem with ⟨y, hy, heq⟩
    have hprior := (fetchStart_spec.2.2.1 y hy).2
    rw [heq] at hprior
    exact (mem_heap hxheap).2.1 hprior

lemma length_fetchStart : (fetchStart pools cache now maxPools priority).length =
    min maxPools (priorityRows priority (fetchCandidates cache now pools)).length := by
  rcases @takePriority_spec maxPools (priorityRows priority (fetchCandidates cache now pools))
    with ⟨hlength, hnodup, hsub, hall⟩
  rw [← fetchStart] at hlength hnodup hsub hall
  have hrows : ((priorityRows priority (fetchCandidates cache now pools)).map addressOf).Nodup :=
    hdistinct.sublist (List.filter_sublist.map addressOf)
  have hle : (fetchStart pools cache now maxPools priority).length ≤
      (priorityRows priority (fetchCandidates cache now pools)).length :=
    (hnodup.of_map addressOf |>.subperm hsub).length_le
  rcases hlength.lt_or_eq with hroom | hfull
  · have hge : ((priorityRows priority (fetchCandidates cache now pools)).map addressOf).length ≤
        ((fetchStart pools cache now maxPools priority).map addressOf).length := by
      refine (hrows.subperm fun a ha => ?_).length_le
      rcases List.mem_map.mp ha with ⟨row, hrow, rfl⟩
      exact hall hroom row hrow
    rw [List.length_map, List.length_map] at hge
    omega
  · omega

omit hdistinct in
lemma length_fetchSlots : (fetchSlots pools cache now maxPools priority).length = 8 := by
  rw [fetchSlots, List.length_map]
  rfl

omit hdistinct in
/-- What one protocol adds in the first `n` turns. -/
lemma turn_count {s : ℕ} {p : ProtocolType} (h : fetchableProtocols[s]? = some p) (n : ℕ) :
    min (queueAt (fetchSlots pools cache now maxPools priority) s).length
        (biasAt (fetchSlots pools cache now maxPools priority) s *
          turnsBefore (fetchSlots pools cache now maxPools priority) s n) =
      min (min maxPools (rowsOf priority (fetchCandidates cache now pools) p).length)
        (fetchBias p * ((n + (7 - s)) / 8)) := by
  rw [turnsBefore, length_fetchSlots, queueAt, biasAt, fetchSlots, List.getElem?_map, h, Option.map_some,
    Option.map_some, Option.map_some, Option.getD_some, Option.getD_some,
    (@kept_heapOf _ _ _ rankedPool maxPools _).length_eq]

lemma length_fetchSchedule (n : ℕ) : (fetchSchedule pools cache now maxPools priority n).length =
    fetchCount pools cache now maxPools priority n := by
  rw [fetchSchedule, length_schedule (distinct_fetchSlots hdistinct) (by rw [length_fetchSlots]; omega)]
  rw [scheduled, length_fetchStart hdistinct, fetchCount, length_fetchSlots]
  refine congrArg _ ?_
  simp only [Finset.sum_range_succ, Finset.sum_range_zero]
  rw [turn_count (s := 0) rfl, turn_count (s := 1) rfl, turn_count (s := 2) rfl, turn_count (s := 3) rfl,
    turn_count (s := 4) rfl, turn_count (s := 5) rfl, turn_count (s := 6) rfl, turn_count (s := 7) rfl]
  simp only [fetchableProtocols, List.zipIdx_cons, List.zipIdx_nil, List.map_cons, List.map_nil, List.sum_cons,
    List.sum_nil, Nat.add_assoc, Nat.zero_add, Nat.add_zero]

/-- Among distinct addresses, either all candidates are in reach or `maxPools` of them. -/
lemma reach_of_distinct : maxPools ≤ (addressesInReach pools cache now maxPools priority).card ∨
    ∀ row ∈ fetchCandidates cache now pools,
      addressOf row ∈ addressesInReach pools cache now maxPools priority := by
  by_contra! hboth
  rcases hboth with ⟨hfew, row, hrow, hout⟩
  have hnot : ¬ InReach pools cache now maxPools priority row :=
    fun h => hout (mem_addressesInReach.mpr ⟨row, hrow, h, rfl⟩)
  rw [InReach, not_or, not_lt] at hnot
  -- the heap of its protocol is full
  have hlength := (@kept_heapOf _ _ _ rankedPool maxPools
    (rowsOf priority (fetchCandidates cache now pools) row.1.protocol)).length_eq
  rw [Nat.min_eq_left (hnot.2.trans List.countP_le_length)] at hlength
  have hsub : ((heapOf rankedPool maxPools
      (rowsOf priority (fetchCandidates cache now pools) row.1.protocol)).map addressOf).toFinset ⊆
        addressesInReach pools cache now maxPools priority := by
    intro a ha
    rcases List.mem_map.mp (List.mem_toFinset.mp ha) with ⟨x, hx, rfl⟩
    exact mem_addressesInReach.mpr ⟨x, (mem_heap hx).1, (mem_heap hx).2.2.2, rfl⟩
  have hcard := Finset.card_le_card hsub
  rw [List.toFinset_card_of_nodup (nodup_heap hdistinct _), List.length_map, hlength] at hcard
  omega

end Distinct

end Targets

/-- The selection keeps its promise if and only if no turn of the rounds crosses the cap, and the candidates
in reach fill it or are all there are.  With distinct addresses, the turns are counted. -/
theorem fetch_targets_ok_iff (pools : List IndexedPool) (cache : FetchCache) (now maxPools : ℕ)
    (priority : List Address) :
    (TargetsOk pools cache now maxPools priority (fetchTargetRows pools cache now maxPools priority) ↔
      (∀ n, (fetchSchedule pools cache now maxPools priority n).length < maxPools →
        (fetchSchedule pools cache now maxPools priority (n + 1)).length ≤ maxPools) ∧
      (maxPools ≤ (addressesInReach pools cache now maxPools priority).card ∨
        ∀ row ∈ fetchCandidates cache now pools,
          addressOf row ∈ addressesInReach pools cache now maxPools priority)) ∧
    (((fetchCandidates cache now pools).map addressOf).Nodup →
      (TargetsOk pools cache now maxPools priority (fetchTargetRows pools cache now maxPools priority) ↔
        ∀ n, fetchCount pools cache now maxPools priority n < maxPools →
          fetchCount pools cache now maxPools priority (n + 1) ≤ maxPools)) := by
  refine ⟨targetsOk_iff, fun hdistinct => ?_⟩
  rw [targetsOk_iff, and_iff_left (reach_of_distinct hdistinct)]
  simp only [length_fetchSchedule hdistinct]

/-- One V2 and two V3 pools, none of them fetched before. -/
def threePools : List IndexedPool :=
  [⟨⟨1, .uniswapV2, [20, 21], 30, none⟩, 10⟩, ⟨⟨2, .uniswapV3, [20, 21], 30, none⟩, 10⟩,
    ⟨⟨3, .uniswapV3, [20, 21], 30, none⟩, 10⟩]

def emptyFetchCache : FetchCache := ⟨⟨∅, 100, 60, 0, ∅⟩, 5, 10⟩

/-- The turn of the V3 pools starts with one place left and takes two. -/
theorem fetch_turn_crosses_cap :
    (selectFetchTargets threePools emptyFetchCache 0 2 []).map (fun pool => pool.address) = [1, 2, 3] ∧
      ¬ TargetsOk threePools emptyFetchCache 0 2 [] (fetchTargetRows threePools emptyFetchCache 0 2 []) := by
  have hrows : (fetchTargetRows threePools emptyFetchCache 0 2 []).map addressOf = [1, 2, 3] := by
    rw [fetchTargetRows_eq (by decide), rounds, if_neg (by decide), if_neg (by decide), rounds,
      if_pos (by decide)]
    decide
  refine ⟨?_, fun h => ?_⟩
  · rw [selectFetchTargets, List.map_map]
    exact hrows
  · have hlength := congrArg List.length hrows
    rw [List.length_map] at hlength
    have hcap := h.cap
    rw [hlength] at hcap
    exact absurd hcap (by decide)

end PolygonArb

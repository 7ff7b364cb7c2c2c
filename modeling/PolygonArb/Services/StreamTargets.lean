import PolygonArb.Lib.TurnTaking
import PolygonArb.Pipeline.Graph
import PolygonArb.Services.PartialCache

/-!
# The pools to stream

`select_stream_targets_with_epoch` of `services/partial_cache/mod.rs`: the discovered pools are scored,
membership of the hot set being one of the summands, and the best ones are streamed up to a cap.  On a
reselect the pools past the leading block are rotated.  Hot pools that are left over fill the free places
(`Lib/TurnTaking.lean`).
-/

namespace PolygonArb

open TurnTaking

/-- A saturating `u64` or `usize` result. -/
def saturated64 (n : ℕ) : ℕ := min n (2 ^ 64 - 1)

/-- What one selection reads; `edgeCentrality` is the cached edge count, with its key. -/
structure StreamRequest where
  discovered : List DiscoveredPool
  hot : List Address
  graph : Option RoutingGraph
  arena : StateArena
  partialCache : PartialPoolCache
  edgeCentrality : Option (ℕ × (Address → ℕ))
  cap : ℕ
  nowMs : ℕ
  epoch : ℕ
  demote : List Address
  centralityCacheKey : ℕ

/-! ## Scores -/

def isStreamableProtocol : ProtocolType → Bool
  | .uniswapV2 | .uniswapV3 => true
  | _ => false

/-- The bit length of the thinner reserve, twice the bit length of the liquidity. -/
def streamLiquidityScore : PoolState → ℕ
  | .v2 s =>
      let thin := min s.reserve0 s.reserve1
      if thin = 0 then 0 else thin.toNat.log2 + 1
  | .v3 s | .v4 s =>
      if s.liquidity = 0 ∨ s.sqrtPriceX96 = 0 then 0 else (s.liquidity.log2 + 1) * 2
  | _ => 0

def minStreamLiqScore : ℕ := 48

def liveEdgeCounts (graph : RoutingGraph) (arena : StateArena) (address : Address) : ℕ :=
  graph.adjacency.flatten.countP fun ge =>
    isLiveGraphEdge ge && decide (arena.inner.poolAddresses[ge.edge.poolIndex]? = some address)

/-- Cached under a key other than zero. -/
def liveEdgeCentrality (cached : Option (ℕ × (Address → ℕ))) (cacheKey : ℕ) (graph : RoutingGraph)
    (arena : StateArena) : Address → ℕ :=
  match cached with
  | some (key, counts) =>
      if cacheKey ≠ 0 ∧ key = cacheKey then counts else liveEdgeCounts graph arena
  | none => liveEdgeCounts graph arena

namespace StreamRequest

variable (req : StreamRequest)

def inArena (address : Address) : Bool := (req.arena.inner.addressToPool address).isSome

def liquidity (address : Address) : ℕ :=
  (((req.arena.inner.addressToPool address).bind req.arena.poolState).map streamLiquidityScore).getD 0

def centrality (address : Address) : ℕ :=
  match req.graph with
  | some graph => liveEdgeCentrality req.edgeCentrality req.centralityCacheKey graph req.arena address
  | none => 0

/-- The time of the last patch, and the capped number of patches. -/
def activity (address : Address) : ℕ × ℕ :=
  match req.partialCache.pools address with
  | some s => (s.patchedAtMs, min s.activityCount 10000)
  | none => (0, 0)

def liveBoost (address : Address) : ℕ :=
  if 0 < (req.activity address).1 ∧ req.nowMs - (req.activity address).1 < 120000 then 250000 else 0

def cycleHot (address : Address) : ℕ := if address ∈ req.hot then 100000 else 0

def demotePenalty (address : Address) : ℕ :=
  if address ∈ req.demote ∧ address ∉ req.hot then 50000 else 0

def streamScore (address : Address) : ℕ :=
  let score := saturated64 (req.cycleHot address + req.liveBoost address)
  let score := saturated64 (score + saturated64 (req.liquidity address * 1000))
  let score := saturated64 (score + saturated64 (req.centrality address * 100))
  let score := saturated64 (score + saturated64 ((req.activity address).2 * 250))
  let score := saturated64 (score + ((req.activity address).1 - (req.nowMs - 300000)) / 1000)
  score - req.demotePenalty address

/-- The score of a pool that is in the arena and hot or not too thin. -/
def scoredRow (pool : DiscoveredPool) : Option (ℕ × Address) :=
  match req.arena.inner.addressToPool pool.address with
  | none => none
  | some _ =>
      if req.liquidity pool.address < minStreamLiqScore ∧ pool.address ∉ req.hot then none
      else some (req.streamScore pool.address, pool.address)

def scored : List (ℕ × Address) :=
  (req.discovered.filter fun pool => isStreamableProtocol pool.protocol).filterMap req.scoredRow

/-! ## The selection -/

/-- `b.0.cmp(&a.0).then_with(|| a.1.cmp(&b.1))` is not greater. -/
def rowLe (a b : ℕ × Address) : Bool := decide (b.1 < a.1) || (decide (a.1 = b.1) && decide (a.2 ≤ b.2))

def sortKeep : ℕ := min req.scored.length (max (saturated64 (req.cap * 2)) req.cap)

/-- The rows kept, in order: rows that compare equal are equal, so the unstable selection and sort give
the prefix of the sorted list. -/
def keptRows : List (ℕ × Address) := (req.scored.mergeSort rowLe).take req.sortKeep

def hotTake : ℕ := min (req.keptRows.takeWhile fun row => decide (100000 ≤ row.1)).length req.cap

def rotatedRows : List (ℕ × Address) :=
  if 0 < req.epoch ∧ req.cap < req.keptRows.length then
    rotateTail req.hotTake
      (min (saturated64 (req.epoch * (req.cap / 4))) (req.keptRows.length - req.hotTake)) req.keptRows
  else req.keptRows

def selectStreamTargetsWithEpoch : List Address :=
  if req.cap = 0 then [] else seated req.cap req.inArena (req.rotatedRows.map Prod.snd) req.hot

/-! ## Turns, in terms of the request -/

/-- The pools that are scored, one row for each time a pool is listed. -/
def candidates : List Address := req.scored.map Prod.snd

/-- A higher score, or the same one and a lower address. -/
def Outranks (a b : Address) : Prop :=
  req.streamScore b < req.streamScore a ∨ req.streamScore a = req.streamScore b ∧ a < b

instance : DecidableRel req.Outranks := fun a b =>
  inferInstanceAs (Decidable (req.streamScore b < req.streamScore a ∨
    req.streamScore a = req.streamScore b ∧ a < b))

/-- How many rows come before a pool. -/
def rank (a : Address) : ℕ := TopRanked.rank req.Outranks req.candidates a

/-- The rows with the score of a hot pool, among the ones kept. -/
def leadRows : ℕ :=
  min (min req.sortKeep (req.candidates.countP fun a => decide (100000 ≤ req.streamScore a))) req.cap

def rotation : ℕ :=
  if 0 < req.epoch ∧ req.cap < req.sortKeep then
    min (saturated64 (req.epoch * (req.cap / 4))) (req.sortKeep - req.leadRows)
  else 0

/-- One of the rows of a pool that are kept has the turn `t`. -/
def HasTurn (a : Address) (t : ℕ) : Prop :=
  ∃ q < req.sortKeep, req.rank a ≤ q ∧ q < req.rank a + req.candidates.count a ∧
    turnOf req.leadRows req.rotation req.sortKeep q = t

instance (a : Address) (t : ℕ) : Decidable (req.HasTurn a t) :=
  inferInstanceAs (Decidable (∃ q < req.sortKeep, req.rank a ≤ q ∧
    q < req.rank a + req.candidates.count a ∧ turnOf req.leadRows req.rotation req.sortKeep q = t))

/-- The pools with a turn before `t`. -/
def ahead (t : ℕ) : Finset Address :=
  req.candidates.toFinset.filter fun b => ∃ t' < t, req.HasTurn b t'

/-- The pools that have a turn. -/
def inTurn : Finset Address := req.candidates.toFinset.filter fun a => req.rank a < req.sortKeep

def hotArena : Finset Address := req.hot.toFinset.filter fun a => req.inArena a = true

/-! ## Ranking -/

variable {req} {a : Address} {q t : ℕ}

instance : IsStrictTotalOrder Address req.Outranks where
  irrefl a h := by
    rcases h with h | ⟨-, h⟩
    · exact lt_irrefl _ h
    · exact BitVec.lt_irrefl a h
  trans a b c hab hbc := by
    rcases hab with hab | ⟨hab, hab'⟩
    · rcases hbc with hbc | ⟨hbc, -⟩
      · exact Or.inl (hbc.trans hab)
      · exact Or.inl (hbc ▸ hab)
    · rcases hbc with hbc | ⟨hbc, hbc'⟩
      · exact Or.inl (hab ▸ hbc)
      · exact Or.inr ⟨hab.trans hbc, BitVec.lt_trans hab' hbc'⟩
  trichotomous a b hab hba := by
    simp only [Outranks, not_or, not_lt, not_and, BitVec.not_lt] at hab hba
    have hscore := le_antisymm hab.1 hba.1
    exact BitVec.le_antisymm (hba.2 hscore.symm) (hab.2 hscore)

lemma scored_score {row : ℕ × Address} (h : row ∈ req.scored) : row.1 = req.streamScore row.2 := by
  rcases List.mem_filterMap.mp h with ⟨pool, -, hrow⟩
  rw [scoredRow] at hrow
  split at hrow
  · cases hrow
  · split_ifs at hrow
    cases hrow
    rfl

/-- The rows kept, by their pools. -/
def kept (req : StreamRequest) : List Address := req.keptRows.map Prod.snd

lemma sortKeep_le : req.sortKeep ≤ req.scored.length := Nat.min_le_left ..

lemma length_keptRows : req.keptRows.length = req.sortKeep := by
  rw [keptRows, List.length_take, List.length_mergeSort, Nat.min_eq_left sortKeep_le]

lemma pairwise_sorted : (req.scored.mergeSort rowLe).Pairwise fun a b => rowLe a b = true := by
  refine List.pairwise_mergeSort ?_ ?_ _
  · rintro ⟨s, a⟩ ⟨s', b⟩ ⟨s'', c⟩
    simp only [rowLe, Bool.or_eq_true, Bool.and_eq_true, decide_eq_true_eq]
    rintro (hab | ⟨rfl, hab⟩) (hbc | ⟨rfl, hbc⟩)
    · exact Or.inl (hbc.trans hab)
    · exact Or.inl hab
    · exact Or.inl hbc
    · exact Or.inr ⟨rfl, BitVec.le_trans hab hbc⟩
  · rintro ⟨s, a⟩ ⟨s', b⟩
    simp only [rowLe, Bool.or_eq_true, Bool.and_eq_true, decide_eq_true_eq]
    rcases lt_trichotomy s s' with h | rfl | h
    · exact Or.inr (Or.inl h)
    · exact (BitVec.le_total a b).imp (fun h => Or.inr ⟨rfl, h⟩) fun h => Or.inr ⟨rfl, h⟩
    · exact Or.inl (Or.inl h)

/-- The pools of the sorted rows. -/
lemma sorted_pools : ((req.scored.mergeSort rowLe).map Prod.snd).Pairwise fun a b => ¬ req.Outranks b a := by
  refine List.pairwise_map.mpr (pairwise_sorted.imp_of_mem ?_)
  intro row row' hrow hrow' hle
  have hscore := scored_score ((List.mergeSort_perm req.scored rowLe).mem_iff.mp hrow)
  have hscore' := scored_score ((List.mergeSort_perm req.scored rowLe).mem_iff.mp hrow')
  simp only [rowLe, Bool.or_eq_true, Bool.and_eq_true, decide_eq_true_eq, hscore, hscore'] at hle
  rintro (hlt | ⟨heq, hlt⟩)
  · rcases hle with hle | ⟨hle, -⟩ <;> omega
  · rcases hle with hle | ⟨-, hle⟩
    · omega
    · exact absurd hlt (BitVec.not_lt.mpr hle)

lemma sorted_perm : ((req.scored.mergeSort rowLe).map Prod.snd).Perm req.candidates :=
  (List.mergeSort_perm req.scored rowLe).map Prod.snd

/-- The places of a pool among the kept rows are the ones after all that outrank it. -/
lemma getElem?_kept : req.kept[q]? = some a ↔
    q < req.sortKeep ∧ req.rank a ≤ q ∧ q < req.rank a + req.candidates.count a := by
  rw [kept, keptRows, List.map_take, List.getElem?_take]
  have hplaces := getElem?_of_sorted (q := q) (a := a) (@sorted_pools req)
  rw [TopRanked.rank, sorted_perm.countP_eq, sorted_perm.count_eq] at hplaces
  split_ifs with hq
  · rw [hplaces]
    exact (and_iff_right hq).symm
  · simp [hq]

lemma length_kept : req.kept.length = req.sortKeep := by
  rw [kept, List.length_map, length_keptRows]

/-! ## Turns -/

lemma hotTake_eq : req.hotTake = req.leadRows := by
  have hsorted : (req.scored.mergeSort rowLe).Pairwise fun a b =>
      decide (100000 ≤ b.1) = true → decide (100000 ≤ a.1) = true := by
    refine pairwise_sorted.imp fun {row row'} hle hrow => ?_
    simp only [rowLe, Bool.or_eq_true, Bool.and_eq_true, decide_eq_true_eq] at hle hrow ⊢
    omega
  have hcount : req.scored.countP (fun row => decide (100000 ≤ row.1)) =
      req.candidates.countP fun a => decide (100000 ≤ req.streamScore a) := by
    rw [candidates, List.countP_map]
    refine List.countP_congr fun row hrow => ?_
    rw [Function.comp_apply, scored_score hrow]
  rw [hotTake, leadRows, keptRows, length_takeWhile_take hsorted,
    (List.mergeSort_perm req.scored rowLe).countP_eq, hcount]

lemma leadRows_le : req.leadRows ≤ req.sortKeep :=
  (Nat.min_le_left ..).trans (Nat.min_le_left ..)

/-- The pools in the order of their turns. -/
def turns (req : StreamRequest) : List Address := req.rotatedRows.map Prod.snd

lemma getElem?_turns : req.turns[t]? = some a ↔ req.HasTurn a t := by
  have hplaces : (∃ q, req.kept[q]? = some a ∧ turnOf req.leadRows req.rotation req.sortKeep q = t) ↔
      req.HasTurn a t := by
    simp only [getElem?_kept, HasTurn, and_assoc]
  rw [← hplaces, turns, rotatedRows, length_keptRows, hotTake_eq]
  split_ifs with hrotated
  · rw [← length_kept, ← getElem?_rotateTail (by rw [length_kept]; exact leadRows_le), rotation,
      if_pos hrotated, rotateTail, rotateTail, length_kept]
    simp only [List.map_append, List.map_take, List.map_drop, kept]
  · have hnone : req.rotation = 0 := if_neg hrotated
    simp only [hnone, turnOf_zero, exists_eq_right]
    rfl

lemma mem_candidates_of_hasTurn (h : req.HasTurn a t) : a ∈ req.candidates := by
  rcases h with ⟨q, -, hle, hlt, -⟩
  exact List.count_pos_iff.mp (by omega)

lemma ahead_eq (t : ℕ) : (req.turns.take t).toFinset = req.ahead t := by
  ext b
  rw [List.mem_toFinset, ahead, Finset.mem_filter, List.mem_toFinset, List.mem_iff_getElem?]
  constructor
  · rintro ⟨t', ht'⟩
    rw [List.getElem?_take] at ht'
    split_ifs at ht' with hlt
    have hturn := getElem?_turns.mp ht'
    exact ⟨mem_candidates_of_hasTurn hturn, t', hlt, hturn⟩
  · rintro ⟨-, t', hlt, hturn⟩
    refine ⟨t', ?_⟩
    rw [List.getElem?_take, if_pos hlt]
    exact getElem?_turns.mpr hturn

lemma inTurn_eq : req.turns.toFinset = req.inTurn := by
  ext b
  rw [List.mem_toFinset, inTurn, Finset.mem_filter, List.mem_toFinset, List.mem_iff_getElem?]
  simp only [getElem?_turns]
  constructor
  · rintro ⟨t, hturn⟩
    refine ⟨mem_candidates_of_hasTurn hturn, ?_⟩
    rcases hturn with ⟨q, hq, hle, -, -⟩
    exact hle.trans_lt hq
  · rintro ⟨hmem, hrank⟩
    have hcount := List.count_pos_iff.mpr hmem
    exact ⟨_, req.rank b, hrank, le_rfl, by omega, rfl⟩

/-! ## The hot pools -/

/-- The selection is a list of distinct pools within the cap, with every hot pool if those fit. -/
def StreamsHot (req : StreamRequest) : Prop :=
  req.selectStreamTargetsWithEpoch.length ≤ req.cap ∧ req.selectStreamTargetsWithEpoch.Nodup ∧
    (req.hotArena.card ≤ req.cap → ∀ a ∈ req.hotArena, a ∈ req.selectStreamTargetsWithEpoch)

/-- Some turn of a pool comes while a place is free. -/
def TurnInCap (req : StreamRequest) (a : Address) : Prop :=
  ∃ t, req.HasTurn a t ∧ (req.ahead t).card < req.cap

lemma selection_spec : req.selectStreamTargetsWithEpoch.length ≤ req.cap ∧
    req.selectStreamTargetsWithEpoch.Nodup := by
  rw [selectStreamTargetsWithEpoch]
  split_ifs
  · exact ⟨Nat.zero_le _, List.nodup_nil⟩
  · exact seated_spec

lemma hot_selected_iff (hcap : req.cap ≠ 0) :
    (∀ a ∈ req.hotArena, a ∈ req.selectStreamTargetsWithEpoch) ↔
      (req.inTurn ∪ req.hotArena).card ≤ req.cap ∨ ∀ a ∈ req.hotArena, req.TurnInCap a := by
  have hlate := @late_seated_iff _ _ req.cap req.inArena req.turns req.hot
  rw [inTurn_eq] at hlate
  simp only [getElem?_turns, ahead_eq] at hlate
  rw [selectStreamTargetsWithEpoch, if_neg hcap]
  simp only [hotArena, Finset.mem_filter, List.mem_toFinset, and_imp]
  exact hlate

lemma streamsHot_iff : req.StreamsHot ↔
    (req.hotArena.card ≤ req.cap → (req.inTurn ∪ req.hotArena).card ≤ req.cap ∨
      ∀ a ∈ req.hotArena, req.TurnInCap a) := by
  rw [StreamsHot, and_iff_right selection_spec.1, and_iff_right selection_spec.2]
  rcases eq_or_ne req.cap 0 with hzero | hcap
  · have hempty : req.hotArena.card ≤ req.cap → ∀ a ∉ req.hotArena, True := fun _ _ _ => trivial
    rw [hzero, Nat.le_zero, Finset.card_eq_zero]
    constructor
    · rintro - hnone
      exact Or.inr fun a ha => absurd (hnone ▸ ha) (Finset.notMem_empty a)
    · rintro - hnone a ha
      exact absurd (hnone ▸ ha) (Finset.notMem_empty a)
  · exact imp_congr_right fun _ => hot_selected_iff hcap

/-! ### Pools listed once -/

section Once

variable (hnodup : req.candidates.Nodup)

include hnodup

lemma nodup_turns : req.turns.Nodup := by
  have hkept : (req.keptRows.map Prod.snd).Nodup := by
    rw [keptRows, List.map_take]
    exact (sorted_perm.nodup_iff.mpr hnodup).sublist (List.take_sublist _ _)
  rw [turns, rotatedRows]
  split_ifs
  · exact ((rotateTail_perm ..).map Prod.snd).nodup_iff.mpr hkept
  · exact hkept

omit hnodup in
lemma length_turns : req.turns.length = req.sortKeep := by
  rw [turns, List.length_map, rotatedRows]
  split_ifs
  · rw [(rotateTail_perm ..).length_eq, length_keptRows]
  · exact length_keptRows

lemma card_ahead (ht : t ≤ req.sortKeep) : (req.ahead t).card = t := by
  rw [← ahead_eq, List.toFinset_card_of_nodup ((nodup_turns hnodup).sublist (List.take_sublist _ _)),
    List.length_take, length_turns, Nat.min_eq_left ht]

lemma card_inTurn : req.inTurn.card = req.sortKeep := by
  rw [← inTurn_eq, List.toFinset_card_of_nodup (nodup_turns hnodup), length_turns]

lemma hasTurn_iff : req.HasTurn a t ↔ a ∈ req.candidates ∧ req.rank a < req.sortKeep ∧
    turnOf req.leadRows req.rotation req.sortKeep (req.rank a) = t := by
  constructor
  · rintro h
    have hmem := mem_candidates_of_hasTurn h
    rcases h with ⟨q, hq, hle, hlt, hturn⟩
    rw [List.count_eq_one_of_mem hnodup hmem] at hlt
    obtain rfl : q = req.rank a := by omega
    exact ⟨hmem, hq, hturn⟩
  · rintro ⟨hmem, hrank, hturn⟩
    refine ⟨_, hrank, le_rfl, ?_, hturn⟩
    rw [List.count_eq_one_of_mem hnodup hmem]
    exact Nat.lt_succ_self _

omit hnodup in
lemma le_streamScore_of_hot (h : a ∈ req.hot) : 100000 ≤ req.streamScore a := by
  have hpenalty : req.demotePenalty a = 0 := if_neg fun hcold => hcold.2 h
  have hhot : req.cycleHot a = 100000 := if_pos h
  simp only [streamScore, hpenalty, hhot, saturated64]
  omega

omit hnodup in
/-- All rows up to the one of a hot pool have the score of a hot pool. -/
lemma rank_lt_countP (hhot : a ∈ req.hot) (hmem : a ∈ req.candidates) :
    req.rank a < req.candidates.countP fun b => decide (100000 ≤ req.streamScore b) := by
  have hscore := le_streamScore_of_hot hhot
  have hall : req.candidates.countP (fun b => decide (req.Outranks b a)) =
      (req.candidates.filter fun b => decide (100000 ≤ req.streamScore b)).countP
        fun b => decide (req.Outranks b a) := by
    rw [List.countP_filter]
    refine List.countP_congr fun b _ => ?_
    simp only [Bool.and_eq_true, decide_eq_true_eq]
    refine ⟨fun hout => ⟨hout, ?_⟩, And.left⟩
    rcases hout with hlt | ⟨heq, -⟩
    · exact hscore.trans hlt.le
    · exact hscore.trans heq.ge
  have hfiltered : a ∈ req.candidates.filter fun b => decide (100000 ≤ req.streamScore b) :=
    List.mem_filter.mpr ⟨hmem, decide_eq_true hscore⟩
  have hlt := TopRanked.rank_lt_length (r := req.Outranks) hfiltered
  rw [TopRanked.rank, ← hall, ← List.countP_eq_length_filter] at hlt
  exact hlt

/-- A hot pool listed once has its turn in time if and only if fewer than `cap` pools outrank it. -/
lemma turnInCap_iff (hhot : a ∈ req.hot) :
    req.TurnInCap a ↔ a ∈ req.candidates ∧ req.rank a < req.cap := by
  constructor
  · rintro ⟨t, hturn, hcard⟩
    rcases (hasTurn_iff hnodup).mp hturn with ⟨hmem, hrank, rfl⟩
    refine ⟨hmem, ?_⟩
    rw [card_ahead hnodup (turnOf_lt hrank).le] at hcard
    by_contra! hlate
    have hcount := rank_lt_countP hhot hmem
    have hlead : req.leadRows = req.cap := by
      rw [leadRows]
      omega
    have hturn := @le_turnOf _ req.rotation req.sortKeep _ (hlead.trans_le hlate)
    omega
  · rintro ⟨hmem, hrank⟩
    have hcount := rank_lt_countP hhot hmem
    have hlength : req.rank a < req.scored.length := by
      have hlt := TopRanked.rank_lt_length (r := req.Outranks) hmem
      rwa [candidates, List.length_map] at hlt
    have hkeep : req.rank a < req.sortKeep := by
      rw [sortKeep]
      omega
    have hlead : req.rank a < req.leadRows := by
      rw [leadRows]
      omega
    refine ⟨req.rank a, (hasTurn_iff hnodup).mpr ⟨hmem, hkeep, if_pos hlead⟩, ?_⟩
    rwa [card_ahead hnodup hkeep.le]

/-- With no pool listed twice, the hot pools are streamed if and only if all pools fit or fewer than
`cap` pools outrank each of them. -/
theorem streamsHot_iff_of_nodup : req.StreamsHot ↔
    (req.hotArena.card ≤ req.cap → (req.candidates.toFinset ∪ req.hotArena).card ≤ req.cap ∨
      ∀ a ∈ req.hotArena, a ∈ req.candidates ∧ req.rank a < req.cap) := by
  have hhot : ∀ a ∈ req.hotArena, a ∈ req.hot :=
    fun a ha => List.mem_toFinset.mp (Finset.mem_filter.mp ha).1
  have hturns : (∀ a ∈ req.hotArena, req.TurnInCap a) ↔
      ∀ a ∈ req.hotArena, a ∈ req.candidates ∧ req.rank a < req.cap :=
    forall₂_congr fun a ha => turnInCap_iff hnodup (hhot a ha)
  rw [streamsHot_iff, hturns]
  refine imp_congr_right fun _ => ⟨?_, ?_⟩
  · rintro (hfits | hranks)
    · rcases Nat.lt_or_ge req.sortKeep req.scored.length with hcut | hall
      · -- more rows than are kept: the kept ones alone take all places
        right
        have hkeep : req.cap ≤ req.sortKeep := by
          rw [sortKeep] at hcut ⊢
          omega
        have hsub : req.inTurn ⊆ req.inTurn ∪ req.hotArena := Finset.subset_union_left
        have hcard := card_inTurn hnodup
        have heq := Finset.eq_of_subset_of_card_le hsub (by omega)
        rw [← heq, hcard] at hfits
        intro a ha
        have hmem : a ∈ req.inTurn := heq ▸ Finset.mem_union_right _ ha
        rcases Finset.mem_filter.mp hmem with ⟨hcandidate, hrank⟩
        exact ⟨List.mem_toFinset.mp hcandidate, hrank.trans_le hfits⟩
      · left
        have hsame : req.inTurn = req.candidates.toFinset := by
          refine Finset.filter_true_of_mem fun a ha => ?_
          have hlt := TopRanked.rank_lt_length (r := req.Outranks) (List.mem_toFinset.mp ha)
          rw [candidates, List.length_map] at hlt
          exact hlt.trans_le hall
        rwa [hsame] at hfits
    · exact Or.inr hranks
  · refine Or.imp_left fun hfits => (Finset.card_le_card ?_).trans hfits
    exact Finset.union_subset_union_left (Finset.filter_subset _ _)

end Once

/-- The selection keeps its promise to the hot pools if and only if, when they fit into the cap, they fit
together with all pools in turn, or each has its turn in time; for pools listed once, fewer than `cap`
pools outrank each. -/
theorem hot_pools_streamed_iff (req : StreamRequest) :
    (req.StreamsHot ↔ (req.hotArena.card ≤ req.cap → (req.inTurn ∪ req.hotArena).card ≤ req.cap ∨
      ∀ a ∈ req.hotArena, ∃ t, req.HasTurn a t ∧ (req.ahead t).card < req.cap)) ∧
    (req.candidates.Nodup → (req.StreamsHot ↔
      (req.hotArena.card ≤ req.cap → (req.candidates.toFinset ∪ req.hotArena).card ≤ req.cap ∨
        ∀ a ∈ req.hotArena, a ∈ req.candidates ∧ req.rank a < req.cap))) :=
  ⟨streamsHot_iff, streamsHot_iff_of_nodup⟩

/-- A hot pool and a pool patched lately, equally deep, and one place. -/
def livePoolRequest : StreamRequest where
  discovered := [⟨1, .uniswapV3, [], 30, none⟩, ⟨2, .uniswapV3, [], 30, none⟩]
  hot := [1]
  graph := none
  arena :=
    { inner := { ArenaInner.empty with
        pools := [.new (.v3 ⟨1, 0, 2 ^ 30, 0, 1, [], true, 0, 0⟩),
          .new (.v3 ⟨1, 0, 2 ^ 30, 0, 1, [], true, 0, 0⟩)]
        poolAddresses := [1, 2]
        addressToPool := fun a => if a = 1 then some 0 else if a = 2 then some 1 else none }
      hotOverlay := []
      hotRevisions := [] }
  partialCache :=
    { PartialPoolCache.new with
      pools := fun a => if a = 2 then some { SlimPoolState.fromV3 1 (2 ^ 30) 0 1000 with activityCount := 1 }
        else none }
  edgeCentrality := none
  cap := 1
  nowMs := 1000
  epoch := 0
  demote := []
  centralityCacheKey := 0

/-- The boost of a recent patch is larger than the one of the hot set. -/
theorem live_pool_displaces_hot : livePoolRequest.hotArena = {1} ∧
    livePoolRequest.selectStreamTargetsWithEpoch = [2] ∧ ¬ livePoolRequest.StreamsHot := by
  have hscored : livePoolRequest.scored = [(162000, 1), (312251, 2)] := by decide
  have hsorted : livePoolRequest.scored.mergeSort rowLe = [(312251, 2), (162000, 1)] := by
    rw [hscored]
    simp [List.mergeSort, List.MergeSort.Internal.splitInTwo, rowLe]
  have hkeep : livePoolRequest.sortKeep = 2 := by
    rw [sortKeep, hscored]
    decide
  have hkept : livePoolRequest.keptRows = [(312251, 2), (162000, 1)] := by
    rw [keptRows, hsorted, hkeep]
    rfl
  have hselected : livePoolRequest.selectStreamTargetsWithEpoch = [2] := by
    rw [selectStreamTargetsWithEpoch, rotatedRows, hkept]
    decide
  have hhot : livePoolRequest.hotArena = {1} := by decide
  refine ⟨hhot, hselected, ?_⟩
  rintro ⟨-, -, hall⟩
  rw [hhot, hselected] at hall
  exact absurd (hall le_rfl 1 (Finset.mem_singleton_self _)) (by decide)

end StreamRequest

end PolygonArb

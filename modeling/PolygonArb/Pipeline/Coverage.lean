import Mathlib.Combinatorics.SimpleGraph.Connectivity.Connected
import PolygonArb.Pipeline.Graph

/-!
# Cycle-capable coverage

`cycle_capable_coverage` of `pipeline/cycle_finder.rs`.  The live edges of the routing graph make a
bipartite graph of tokens and pools; a bridge search over it finds the pools with two incidences that
lie on a cycle, and the tokens next to them.  Node `v < tokenCount` is a token, `tokenCount + p` is
pool `p`, and the edge ids are positions in the list of incidences.

The incidences come out of a hash set, in any order, so the functions below take them as a list.
`bridgeFlags_iff` ties the flags to Mathlib's `SimpleGraph.IsBridge`; `mem_poolIndices_iff` and
`isTokenCapable_iff` say what the coverage holds.
-/

namespace PolygonArb

open LowLink

/-- A pool index and the index of one of its tokens. -/
abbrev Incidence : Type := ℕ × ℕ

/-! ## The incidences of the graph -/

/-- What an edge out of a token contributes. -/
def tokenIncidences (ge : GraphEdge) : List Incidence :=
  if isLiveGraphEdge ge then
    match ge.phase with
    | .direct => [(ge.edge.poolIndex, ge.edge.tokenIn), (ge.edge.poolIndex, ge.edge.tokenOut)]
    | .enterPool => [(ge.edge.poolIndex, ge.edge.tokenIn)]
    | .exitPool => []
  else []

/-- What an edge out of a hub contributes. -/
def hubIncidences (ge : GraphEdge) : List Incidence :=
  if ge.phase = .exitPool ∧ isLiveGraphEdge ge then [(ge.edge.poolIndex, ge.edge.tokenOut)] else []

def liveIncidences (graph : RoutingGraph) : List Incidence :=
  (graph.adjacency.take graph.tokenCount).flatten.flatMap tokenIncidences ++
    (graph.adjacency.drop graph.tokenCount).flatten.flatMap hubIncidences

/-! ## The bridge search -/

section Search

variable (tokenCount poolCount : ℕ) (edges : List Incidence)

/-- The entry of an incidence in the list of node `v`, if it has one. -/
def incidenceEntry (v : ℕ) : Incidence × ℕ → Option (ℕ × ℕ)
  | ((pool, token), id) =>
      if v = token then some (tokenCount + pool, id)
      else if v = tokenCount + pool then some (token, id)
      else none

def incidenceAdjacency (v : ℕ) : List (ℕ × ℕ) := edges.zipIdx.filterMap (incidenceEntry tokenCount v)

def otherNode (id node : ℕ) : ℕ :=
  match edges[id]? with
  | some (pool, token) => if node = tokenCount + pool then token else tokenCount + pool
  | none => node

def bridgeFlags : ℕ → Bool :=
  (run (incidenceAdjacency tokenCount edges) (otherNode tokenCount edges)
    (List.range (tokenCount + poolCount))).bridges

def nonBridgeIncidenceCount (bridges : ℕ → Bool) (pool : ℕ) : ℕ :=
  edges.zipIdx.countP fun e => decide (e.1.1 = pool) && !bridges e.2

/-- The incidences of the participating pools. -/
def participatingIncidences : List Incidence :=
  edges.filter fun e => 2 ≤ nonBridgeIncidenceCount edges (bridgeFlags tokenCount poolCount edges) e.1

end Search

/-! ## The coverage -/

namespace CycleCapableCoverage

/-- A word past the end of the mask is left alone. -/
def maskSet (words : List (BitVec 64)) (idx : ℕ) : List (BitVec 64) :=
  words.modify (idx / 64) (· ||| 1#64 <<< (idx % 64))

def isTokenCapable (coverage : CycleCapableCoverage) (tokenIdx : ℕ) : Bool :=
  if coverage.tokenCount ≤ tokenIdx then false
  else
    match coverage.tokenMask[tokenIdx / 64]? with
    | some word => (word >>> (tokenIdx % 64)) &&& 1#64 = 1#64
    | none => false

end CycleCapableCoverage

/-- Incidences past the token or pool tables are skipped. -/
def incidenceEdges (tokenCount poolCount : ℕ) (incidences : List Incidence) : List Incidence :=
  incidences.filter fun e => decide (e.1 < poolCount) && decide (e.2 < tokenCount)

/-- `cycle_capable_coverage`, from the live incidences in the order the hash set gives them. -/
def cycleCapableCoverage (graph : RoutingGraph) (incidences : List Incidence) : CycleCapableCoverage :=
  let edges := incidenceEdges graph.tokenCount graph.poolSlots incidences
  let kept := participatingIncidences graph.tokenCount graph.poolSlots edges
  { tokenMask :=
      kept.foldl (fun words e => CycleCapableCoverage.maskSet words e.2)
        (List.replicate ((graph.tokenCount + 63) / 64) 0)
    tokenCount := graph.tokenCount
    poolIndices := (kept.map Prod.fst).toFinset }

/-! ## Flags are bridges -/

/-- The bipartite graph of the incidences. -/
def incidenceGraph (tokenCount : ℕ) (edges : List Incidence) : SimpleGraph ℕ :=
  .fromEdgeSet {e | ∃ i ∈ edges, e = s(i.2, tokenCount + i.1)}

section Bridges

variable {tokenCount poolCount : ℕ} {edges : List Incidence} {v w id pool token : ℕ}

/-- Incidences the search can take: no duplicates, and nothing past the tables. -/
structure Indexed (tokenCount poolCount : ℕ) (edges : List Incidence) : Prop where
  nodup : edges.Nodup
  pool_lt : ∀ e ∈ edges, e.1 < poolCount
  token_lt : ∀ e ∈ edges, e.2 < tokenCount

lemma indexed_incidenceEdges {incidences : List Incidence} (h : incidences.Nodup) :
    Indexed tokenCount poolCount (incidenceEdges tokenCount poolCount incidences) where
  nodup := h.filter _
  pool_lt e he := by
    simp only [incidenceEdges, List.mem_filter, Bool.and_eq_true, decide_eq_true_eq] at he
    exact he.2.1
  token_lt e he := by
    simp only [incidenceEdges, List.mem_filter, Bool.and_eq_true, decide_eq_true_eq] at he
    exact he.2.2

lemma mem_incidenceAdjacency (h : Indexed tokenCount poolCount edges) :
    (w, id) ∈ incidenceAdjacency tokenCount edges v ↔
      ∃ pool token, edges[id]? = some (pool, token) ∧
        (v = token ∧ w = tokenCount + pool ∨ v = tokenCount + pool ∧ w = token) := by
  simp only [incidenceAdjacency, List.mem_filterMap, List.mem_zipIdx_iff_getElem?, Prod.exists]
  constructor
  · rintro ⟨pool, token, id', hget, hentry⟩
    simp only [incidenceEntry] at hentry
    split_ifs at hentry with htoken hpool
    · cases hentry
      exact ⟨pool, token, hget, .inl ⟨htoken, rfl⟩⟩
    · cases hentry
      exact ⟨pool, w, hget, .inr ⟨hpool, rfl⟩⟩
  · rintro ⟨pool, token, hget, ⟨rfl, rfl⟩ | ⟨rfl, rfl⟩⟩
    · exact ⟨pool, v, id, hget, if_pos rfl⟩
    · have hlt := h.token_lt (pool, w) (List.mem_of_getElem? hget)
      have hne : tokenCount + pool ≠ w := by
        dsimp only at hlt
        omega
      refine ⟨pool, w, id, hget, ?_⟩
      rw [incidenceEntry, if_neg hne, if_pos rfl]

lemma edgeLists_incidenceAdjacency (h : Indexed tokenCount poolCount edges) :
    EdgeLists (incidenceAdjacency tokenCount edges) (otherNode tokenCount edges) where
  symm := by
    intro v w id hmem
    rw [mem_incidenceAdjacency h] at hmem ⊢
    rcases hmem with ⟨pool, token, hget, hends⟩
    exact ⟨pool, token, hget, hends.symm.imp And.symm And.symm⟩
  ends := by
    intro v w v' w' id hmem hmem'
    rw [mem_incidenceAdjacency h] at hmem hmem'
    rcases hmem with ⟨pool, token, hget, hends⟩
    rcases hmem' with ⟨pool', token', hget', hends'⟩
    obtain ⟨rfl, rfl⟩ := Prod.mk.inj (Option.some.inj (hget.symm.trans hget'))
    omega
  ne := by
    intro v w id hmem
    rw [mem_incidenceAdjacency h] at hmem
    rcases hmem with ⟨pool, token, hget, hends⟩
    have hlt : token < tokenCount := h.token_lt (pool, token) (List.mem_of_getElem? hget)
    omega
  otherEnd_eq := by
    intro v w id hmem
    rw [mem_incidenceAdjacency h] at hmem
    rcases hmem with ⟨pool, token, hget, hends⟩
    have hlt : token < tokenCount := h.token_lt (pool, token) (List.mem_of_getElem? hget)
    simp only [otherNode, hget]
    split_ifs <;> omega

lemma incidenceAdjacency_lt (h : Indexed tokenCount poolCount edges) :
    ∀ v, ∀ q ∈ incidenceAdjacency tokenCount edges v, q.1 ∈ List.range (tokenCount + poolCount) := by
  rintro v ⟨w, id⟩ hmem
  rcases (mem_incidenceAdjacency h).mp hmem with ⟨pool, token, hget, hends⟩
  have htoken : token < tokenCount := h.token_lt (pool, token) (List.mem_of_getElem? hget)
  have hpool : pool < poolCount := h.pool_lt (pool, token) (List.mem_of_getElem? hget)
  rw [List.mem_range]
  dsimp only
  omega

/-- In bounds, the two ends of an edge say which incidence it is. -/
lemma eq_of_ends {i j : Incidence} (hi : i.2 < tokenCount) (hj : j.2 < tokenCount)
    (h : s(i.2, tokenCount + i.1) = s(j.2, tokenCount + j.1)) : i = j := by
  rcases i with ⟨pool, token⟩
  rcases j with ⟨pool', token'⟩
  rw [Sym2.eq_iff] at h
  dsimp only at hi hj h
  rw [Prod.mk.injEq]
  omega

lemma incidenceGraph_adj (h : Indexed tokenCount poolCount edges) :
    (incidenceGraph tokenCount edges).Adj v w ↔ ∃ i ∈ edges, s(v, w) = s(i.2, tokenCount + i.1) := by
  rw [incidenceGraph, SimpleGraph.fromEdgeSet_adj]
  refine ⟨And.left, fun hmem => ⟨hmem, ?_⟩⟩
  rcases hmem with ⟨i, hi, hends⟩
  have hlt := h.token_lt i hi
  rw [Sym2.eq_iff] at hends
  omega

/-- The moves of the search outside one edge are the moves of the graph without it. -/
lemma move_iff_adj_deleteEdges (h : Indexed tokenCount poolCount edges)
    (hget : edges[id]? = some (pool, token)) :
    (∃ e ∉ ({id} : Set ℕ), (w, e) ∈ incidenceAdjacency tokenCount edges v) ↔
      ((incidenceGraph tokenCount edges).deleteEdges {s(token, tokenCount + pool)}).Adj v w := by
  rw [SimpleGraph.deleteEdges_adj, incidenceGraph_adj h, Set.mem_singleton_iff]
  have htoken : token < tokenCount := h.token_lt (pool, token) (List.mem_of_getElem? hget)
  constructor
  · rintro ⟨e, hne, hmem⟩
    rw [Set.mem_singleton_iff] at hne
    rcases (mem_incidenceAdjacency h).mp hmem with ⟨pool', token', hget', hends⟩
    have hmem' : (pool', token') ∈ edges := List.mem_of_getElem? hget'
    have hsym : s(v, w) = s(token', tokenCount + pool') := by
      rw [Sym2.eq_iff]
      exact hends
    refine ⟨⟨(pool', token'), hmem', hsym⟩, ?_⟩
    rw [hsym]
    intro heq
    obtain ⟨rfl, rfl⟩ := Prod.mk.inj
      (eq_of_ends (i := (pool', token')) (j := (pool, token)) (h.token_lt _ hmem') htoken heq)
    have hlt : e < edges.length := (List.getElem?_eq_some_iff.mp hget').1
    exact hne ((List.getElem?_inj hlt h.nodup).mp (hget'.trans hget.symm))
  · rintro ⟨⟨⟨pool', token'⟩, hmem', hsym⟩, hne⟩
    rcases List.mem_iff_getElem?.mp hmem' with ⟨e, hget'⟩
    refine ⟨e, ?_, (mem_incidenceAdjacency h).mpr ⟨pool', token', hget', Sym2.eq_iff.mp hsym⟩⟩
    rintro rfl
    rw [hget] at hget'
    cases hget'
    exact hne hsym

/-- The flag of an incidence says whether it is a bridge. -/
theorem bridgeFlags_iff (h : Indexed tokenCount poolCount edges)
    (hget : edges[id]? = some (pool, token)) :
    bridgeFlags tokenCount poolCount edges id = true ↔
      (incidenceGraph tokenCount edges).IsBridge s(token, tokenCount + pool) := by
  have hmem : (tokenCount + pool, id) ∈ incidenceAdjacency tokenCount edges token :=
    (mem_incidenceAdjacency h).mpr ⟨pool, token, hget, .inl ⟨rfl, rfl⟩⟩
  have hmoves : (fun a b => ∃ e ∉ ({id} : Set ℕ), (b, e) ∈ incidenceAdjacency tokenCount edges a) =
      ((incidenceGraph tokenCount edges).deleteEdges {s(token, tokenCount + pool)}).Adj := by
    funext a b
    exact propext (move_iff_adj_deleteEdges h hget)
  rw [bridgeFlags, run_bridges (edgeLists_incidenceAdjacency h) List.nodup_range
    (incidenceAdjacency_lt h) hmem, Reach, hmoves, SimpleGraph.isBridge_iff,
    SimpleGraph.reachable_iff_reflTransGen]

/-- An incidence whose removal disconnects nothing. -/
def NonBridge (tokenCount : ℕ) (edges : List Incidence) (pool token : ℕ) : Prop :=
  (pool, token) ∈ edges ∧ ¬ (incidenceGraph tokenCount edges).IsBridge s(token, tokenCount + pool)

/-- A pool participates when it has two tokens over non-bridges. -/
lemma two_le_nonBridgeIncidenceCount (h : Indexed tokenCount poolCount edges) :
    2 ≤ nonBridgeIncidenceCount edges (bridgeFlags tokenCount poolCount edges) pool ↔
      ∃ token₁ token₂, token₁ ≠ token₂ ∧ NonBridge tokenCount edges pool token₁ ∧
        NonBridge tokenCount edges pool token₂ := by
  have hnodup : edges.zipIdx.Nodup := .of_map Prod.fst (by simpa using h.nodup)
  have hmem : ∀ {e : Incidence} {id : ℕ}, (e, id) ∈ edges.zipIdx ↔ edges[id]? = some e :=
    List.mem_zipIdx_iff_getElem?
  rw [nonBridgeIncidenceCount, List.countP_eq_length_filter, ← List.toFinset_card_of_nodup
    (hnodup.filter _), Nat.succ_le_iff, Finset.one_lt_card_iff]
  constructor
  · rintro ⟨⟨⟨pool₁, token₁⟩, id₁⟩, ⟨⟨pool₂, token₂⟩, id₂⟩, h₁, h₂, hne⟩
    simp only [List.mem_toFinset, List.mem_filter, hmem, Bool.and_eq_true, decide_eq_true_eq,
      Bool.not_eq_true'] at h₁ h₂
    rcases h₁ with ⟨hget₁, rfl, hflag₁⟩
    rcases h₂ with ⟨hget₂, rfl, hflag₂⟩
    refine ⟨token₁, token₂, ?_, ⟨List.mem_of_getElem? hget₁, ?_⟩, List.mem_of_getElem? hget₂, ?_⟩
    · rintro rfl
      have hlt : id₁ < edges.length := (List.getElem?_eq_some_iff.mp hget₁).1
      have hid : id₁ = id₂ := (List.getElem?_inj hlt h.nodup).mp (hget₁.trans hget₂.symm)
      exact hne (by rw [hid])
    · rw [← bridgeFlags_iff h hget₁, hflag₁]
      simp
    · rw [← bridgeFlags_iff h hget₂, hflag₂]
      simp
  · rintro ⟨token₁, token₂, hne, ⟨hmem₁, hbridge₁⟩, hmem₂, hbridge₂⟩
    rcases List.mem_iff_getElem?.mp hmem₁ with ⟨id₁, hget₁⟩
    rcases List.mem_iff_getElem?.mp hmem₂ with ⟨id₂, hget₂⟩
    rw [← bridgeFlags_iff h hget₁, Bool.not_eq_true] at hbridge₁
    rw [← bridgeFlags_iff h hget₂, Bool.not_eq_true] at hbridge₂
    refine ⟨((pool, token₁), id₁), ((pool, token₂), id₂), ?_, ?_, ?_⟩
    · simp [hmem, hget₁, hbridge₁]
    · simp [hmem, hget₂, hbridge₂]
    · intro heq
      cases heq
      exact hne rfl

lemma mem_participatingIncidences (h : Indexed tokenCount poolCount edges) :
    (pool, token) ∈ participatingIncidences tokenCount poolCount edges ↔
      (pool, token) ∈ edges ∧ ∃ token₁ token₂, token₁ ≠ token₂ ∧
        NonBridge tokenCount edges pool token₁ ∧ NonBridge tokenCount edges pool token₂ := by
  rw [participatingIncidences, List.mem_filter, decide_eq_true_eq, two_le_nonBridgeIncidenceCount h]

/-- More incidences disconnect less. -/
lemma NonBridge.mono {edges' : List Incidence} {poolCount' : ℕ} (h : Indexed tokenCount poolCount edges)
    (h' : Indexed tokenCount poolCount' edges') (hsub : edges ⊆ edges')
    (hnon : NonBridge tokenCount edges pool token) : NonBridge tokenCount edges' pool token := by
  refine ⟨hsub hnon.1, fun hbridge => hnon.2 ?_⟩
  rw [SimpleGraph.isBridge_iff] at hbridge ⊢
  intro hreach
  refine hbridge (hreach.mono fun v w hadj => ?_)
  rw [SimpleGraph.deleteEdges_adj, incidenceGraph_adj h] at hadj
  rw [SimpleGraph.deleteEdges_adj, incidenceGraph_adj h']
  rcases hadj with ⟨⟨i, hi, hends⟩, hne⟩
  exact ⟨⟨i, hsub hi, hends⟩, hne⟩

/-- The incidences of a single pool are all bridges. -/
lemma not_nonBridge_of_single (h : Indexed tokenCount poolCount edges)
    (hsingle : ∀ e ∈ edges, e.1 = pool) : ¬ NonBridge tokenCount edges pool token := by
  rintro ⟨hmem, hnon⟩
  have htoken : token < tokenCount := h.token_lt _ hmem
  refine hnon (SimpleGraph.isBridge_iff.mpr fun hreach => ?_)
  -- without its edge the token has no neighbour
  rw [SimpleGraph.reachable_iff_reflTransGen] at hreach
  rcases hreach.cases_head with heq | ⟨v, hadj, -⟩
  · omega
  · rw [SimpleGraph.deleteEdges_adj, incidenceGraph_adj h, Set.mem_singleton_iff] at hadj
    rcases hadj with ⟨⟨e, he, hends⟩, hne⟩
    have hpool := hsingle e he
    rw [Sym2.eq_iff] at hends
    rcases hends with ⟨hv, hw⟩ | ⟨hv, -⟩
    · exact hne (by rw [hw, hpool])
    · omega

end Bridges

/-! ## What the coverage holds -/

namespace CycleCapableCoverage

/-- The bit of a token. -/
def maskBit (words : List (BitVec 64)) (idx : ℕ) : Bool :=
  ((words[idx / 64]?).getD 0).getLsbD (idx % 64)

lemma shift_and_one_iff (word : BitVec 64) (bit : ℕ) :
    (word >>> bit) &&& 1#64 = 1#64 ↔ word.getLsbD bit = true := by
  rw [← BitVec.toNat_inj, BitVec.toNat_and, BitVec.toNat_ushiftRight, BitVec.getLsbD, Nat.testBit]
  simp [Nat.and_comm]

lemma isTokenCapable_eq (coverage : CycleCapableCoverage) (token : ℕ) :
    coverage.isTokenCapable token =
      (decide (token < coverage.tokenCount) && maskBit coverage.tokenMask token) := by
  rw [isTokenCapable, maskBit]
  by_cases htoken : coverage.tokenCount ≤ token
  · rw [if_pos htoken, decide_eq_false (by omega), Bool.false_and]
  · rw [if_neg htoken, decide_eq_true (by omega), Bool.true_and]
    cases coverage.tokenMask[token / 64]? with
    | none => simp
    | some word => simp [shift_and_one_iff]

lemma getLsbD_one_shiftLeft {i j : ℕ} (hj : j < 64) :
    (1#64 <<< i).getLsbD j = decide (j = i) := by
  rw [BitVec.getLsbD_shiftLeft, BitVec.getLsbD_one, decide_eq_true hj, Bool.true_and,
    ← decide_not, Bool.eq_iff_iff]
  simp only [Bool.and_eq_true, decide_eq_true_eq]
  omega

lemma maskBit_maskSet {words : List (BitVec 64)} {idx : ℕ} (h : idx / 64 < words.length) (j : ℕ) :
    maskBit (maskSet words idx) j = (maskBit words j || decide (j = idx)) := by
  by_cases hword : j / 64 = idx / 64
  · have hget : words[j / 64]? = some (words.get ⟨idx / 64, h⟩) := by
      rw [hword]
      simp [h]
    have hbit : decide (j % 64 = idx % 64) = decide (j = idx) := decide_eq_decide.mpr (by omega)
    simp only [maskBit, maskSet, List.getElem?_modify, hget, hword.symm, if_true, Option.map_eq_map,
      Option.map_some, Option.getD_some, BitVec.getLsbD_or,
      getLsbD_one_shiftLeft (Nat.mod_lt j (by simp)), hbit]
  · have hne : j ≠ idx := by
      rintro rfl
      exact hword rfl
    simp [maskBit, maskSet, hne, Ne.symm hword]

/-- Setting the bits of a list of incidences sets exactly their tokens. -/
lemma maskBit_foldl (token : ℕ) : ∀ (kept : List Incidence) (words : List (BitVec 64)),
    (∀ e ∈ kept, e.2 / 64 < words.length) →
      (maskBit (kept.foldl (fun words e => maskSet words e.2) words) token = true ↔
        maskBit words token = true ∨ ∃ pool, (pool, token) ∈ kept) := by
  intro kept
  induction kept with
  | nil =>
      intro words _
      simp
  | cons e kept ih =>
      intro words hlt
      have hlt' : ∀ i ∈ kept, i.2 / 64 < (maskSet words e.2).length := by
        intro i hi
        rw [maskSet, List.length_modify]
        exact hlt i (List.mem_cons_of_mem e hi)
      rw [List.foldl_cons, ih _ hlt', maskBit_maskSet (hlt e List.mem_cons_self), Bool.or_eq_true,
        decide_eq_true_eq, or_assoc]
      refine or_congr_right ?_
      constructor
      · rintro (rfl | ⟨pool, hmem⟩)
        · exact ⟨e.1, List.mem_cons_self⟩
        · exact ⟨pool, List.mem_cons_of_mem e hmem⟩
      · rintro ⟨pool, hmem⟩
        rcases List.mem_cons.mp hmem with rfl | hmem
        · exact .inl rfl
        · exact .inr ⟨pool, hmem⟩

end CycleCapableCoverage

section Coverage

variable {graph : RoutingGraph} {incidences : List Incidence}

/-- The incidences the coverage is computed from. -/
abbrev coverageEdges (graph : RoutingGraph) (incidences : List Incidence) : List Incidence :=
  incidenceEdges graph.tokenCount graph.poolSlots incidences

/-- The pool has two tokens over non-bridges. -/
def CycleCapable (graph : RoutingGraph) (incidences : List Incidence) (pool : ℕ) : Prop :=
  ∃ token₁ token₂, token₁ ≠ token₂ ∧
    NonBridge graph.tokenCount (coverageEdges graph incidences) pool token₁ ∧
    NonBridge graph.tokenCount (coverageEdges graph incidences) pool token₂

/-- The pools of the coverage are those with at least two non-bridge incidences. -/
theorem mem_poolIndices_iff (h : incidences.Nodup) (pool : ℕ) :
    pool ∈ (cycleCapableCoverage graph incidences).poolIndices ↔ CycleCapable graph incidences pool := by
  have hindexed : Indexed graph.tokenCount graph.poolSlots (coverageEdges graph incidences) :=
    indexed_incidenceEdges h
  simp only [cycleCapableCoverage, List.mem_toFinset, List.mem_map, Prod.exists,
    mem_participatingIncidences hindexed]
  constructor
  · rintro ⟨pool', token, ⟨-, hcapable⟩, rfl⟩
    exact hcapable
  · rintro ⟨token₁, token₂, hne, h₁, h₂⟩
    exact ⟨pool, token₁, ⟨h₁.1, token₁, token₂, hne, h₁, h₂⟩, rfl⟩

/-- The tokens of the coverage are the tokens of its pools. -/
theorem isTokenCapable_iff (h : incidences.Nodup) (token : ℕ) :
    (cycleCapableCoverage graph incidences).isTokenCapable token = true ↔
      ∃ pool, (pool, token) ∈ coverageEdges graph incidences ∧
        CycleCapable graph incidences pool := by
  have hindexed : Indexed graph.tokenCount graph.poolSlots (coverageEdges graph incidences) :=
    indexed_incidenceEdges h
  have hlt : ∀ e ∈ participatingIncidences graph.tokenCount graph.poolSlots
      (coverageEdges graph incidences),
      e.2 / 64 < (List.replicate ((graph.tokenCount + 63) / 64) (0 : BitVec 64)).length := by
    intro e he
    have htoken := hindexed.token_lt e (List.mem_filter.mp he).1
    rw [List.length_replicate]
    omega
  have hzero : CycleCapableCoverage.maskBit
      (List.replicate ((graph.tokenCount + 63) / 64) 0) token = false := by
    simp only [CycleCapableCoverage.maskBit, List.getElem?_replicate]
    split_ifs <;> simp
  rw [CycleCapableCoverage.isTokenCapable_eq, Bool.and_eq_true, decide_eq_true_eq]
  simp only [cycleCapableCoverage]
  rw [CycleCapableCoverage.maskBit_foldl token _ _ hlt, hzero]
  simp only [Bool.false_eq_true, false_or, mem_participatingIncidences hindexed]
  constructor
  · rintro ⟨-, pool, hmem, hcapable⟩
    exact ⟨pool, hmem, hcapable⟩
  · rintro ⟨pool, hmem, hcapable⟩
    exact ⟨hindexed.token_lt _ hmem, pool, hmem, hcapable⟩

end Coverage

/-! ## Closed routes are covered -/

/-- A closed route of two or more hops: hop `i` takes token `i` into pool `i` and the next token out.
No token and no pool comes twice. -/
structure ClosedRoute (edges : List Incidence) {n : ℕ} (tokens pools : Fin (n + 2) → ℕ) : Prop where
  tokens_inj : Function.Injective tokens
  pools_inj : Function.Injective pools
  enters : ∀ i, (pools i, tokens i) ∈ edges
  leaves : ∀ i, (pools i, tokens (i + 1)) ∈ edges

namespace ClosedRoute

variable {tokenCount poolCount n : ℕ} {edges : List Incidence} {tokens pools : Fin (n + 2) → ℕ}

/-- Any other incidence is still an edge. -/
lemma adj_deleteEdges (h : Indexed tokenCount poolCount edges) {e removed : Incidence}
    (he : e ∈ edges) (hremoved : removed ∈ edges) (hne : e ≠ removed) :
    ((incidenceGraph tokenCount edges).deleteEdges {s(removed.2, tokenCount + removed.1)}).Adj e.2
      (tokenCount + e.1) := by
  rw [SimpleGraph.deleteEdges_adj, incidenceGraph_adj h, Set.mem_singleton_iff]
  exact ⟨⟨e, he, rfl⟩, fun heq => hne (eq_of_ends (h.token_lt e he) (h.token_lt removed hremoved) heq)⟩

/-! The positions of a route go round: `Fin.ofNat` counts on from a position. -/

lemma ofNat_succ (m : ℕ) : Fin.ofNat (n + 2) (m + 1) = Fin.ofNat (n + 2) m + 1 := by
  ext
  simp [Fin.val_add]

lemma ofNat_round (i : Fin (n + 2)) : Fin.ofNat (n + 2) (i + 1 + (n + 1)) = i := by
  ext
  have h : (i : ℕ) + 1 + (n + 1) = i + (n + 2) := by omega
  rw [Fin.val_ofNat, h, Nat.add_mod_right, Nat.mod_eq_of_lt i.isLt]

lemma ofNat_ne {k : ℕ} (i : Fin (n + 2)) (hk : k < n + 1) : Fin.ofNat (n + 2) (i + 1 + k) ≠ i := by
  intro h
  have hval : ((i : ℕ) + 1 + k) % (n + 2) = i := congrArg Fin.val h
  have hi := i.isLt
  by_cases hlt : (i : ℕ) + 1 + k < n + 2
  · rw [Nat.mod_eq_of_lt hlt] at hval
    omega
  · rw [Nat.mod_eq_sub_mod (by omega), Nat.mod_eq_of_lt (by omega)] at hval
    omega

/-- Around the other pools, without an incidence of pool `i`. -/
lemma reachable_around (hindexed : Indexed tokenCount poolCount edges)
    (h : ClosedRoute edges tokens pools) {i : Fin (n + 2)} {token : ℕ}
    (htoken : (pools i, token) ∈ edges) :
    ∀ k : ℕ, k ≤ n + 1 →
      ((incidenceGraph tokenCount edges).deleteEdges {s(token, tokenCount + pools i)}).Reachable
        (tokens (i + 1)) (tokens (Fin.ofNat (n + 2) (i + 1 + k))) := by
  intro k
  induction k with
  | zero =>
      intro _
      have hstart : Fin.ofNat (n + 2) (i + 1 + 0) = i + 1 := by
        ext
        simp [Fin.val_add]
      rw [hstart]
  | succ k ih =>
      intro hk
      set j := Fin.ofNat (n + 2) (i + 1 + k) with hj
      have hne : j ≠ i := ofNat_ne i (by omega)
      have hpool : ∀ t, (pools j, t) ≠ (pools i, token) :=
        fun t heq => hne (h.pools_inj (Prod.mk.inj heq).1)
      have henter := adj_deleteEdges hindexed (h.enters j) htoken (hpool _)
      have hleave := adj_deleteEdges hindexed (h.leaves j) htoken (hpool _)
      rw [show (i : ℕ) + 1 + (k + 1) = i + 1 + k + 1 from rfl, ofNat_succ, ← hj]
      exact ((ih (by omega)).trans henter.reachable).trans hleave.symm.reachable

/-- Both incidences of a hop lie on the cycle of the route. -/
lemma nonBridge (hindexed : Indexed tokenCount poolCount edges) (h : ClosedRoute edges tokens pools)
    (i : Fin (n + 2)) :
    NonBridge tokenCount edges (pools i) (tokens i) ∧
      NonBridge tokenCount edges (pools i) (tokens (i + 1)) := by
  have hne : tokens (i + 1) ≠ tokens i := by
    intro heq
    have hone : (1 : Fin (n + 2)) = 0 := add_eq_left.mp (h.tokens_inj heq)
    simp at hone
  refine ⟨⟨h.enters i, ?_⟩, h.leaves i, ?_⟩
  · rw [SimpleGraph.isBridge_iff, not_not]
    have haround := reachable_around hindexed h (h.enters i) (n + 1) le_rfl
    rw [ofNat_round] at haround
    have hleave := adj_deleteEdges hindexed (h.leaves i) (h.enters i)
      fun heq => hne (Prod.mk.inj heq).2
    exact haround.symm.trans hleave.reachable
  · rw [SimpleGraph.isBridge_iff, not_not]
    have haround := reachable_around hindexed h (h.leaves i) (n + 1) le_rfl
    rw [ofNat_round] at haround
    have henter := adj_deleteEdges hindexed (h.enters i) (h.leaves i)
      fun heq => hne (Prod.mk.inj heq).2.symm
    exact haround.trans henter.reachable

end ClosedRoute

/-- Every pool and every token of a closed route is in the coverage. -/
theorem ClosedRoute.covered {graph : RoutingGraph} {incidences : List Incidence} {n : ℕ}
    {tokens pools : Fin (n + 2) → ℕ} (hnodup : incidences.Nodup)
    (h : ClosedRoute (coverageEdges graph incidences) tokens pools) (i : Fin (n + 2)) :
    pools i ∈ (cycleCapableCoverage graph incidences).poolIndices ∧
      (cycleCapableCoverage graph incidences).isTokenCapable (tokens i) = true := by
  have hindexed : Indexed graph.tokenCount graph.poolSlots (coverageEdges graph incidences) :=
    indexed_incidenceEdges hnodup
  have hne : tokens i ≠ tokens (i + 1) := by
    intro heq
    have hone : (1 : Fin (n + 2)) = 0 := add_eq_left.mp (h.tokens_inj heq).symm
    simp at hone
  have hcapable : CycleCapable graph incidences (pools i) :=
    ⟨tokens i, tokens (i + 1), hne, h.nonBridge hindexed i⟩
  exact ⟨(mem_poolIndices_iff hnodup _).mpr hcapable,
    (isTokenCapable_iff hnodup _).mpr ⟨pools i, h.enters i, hcapable⟩⟩

end PolygonArb

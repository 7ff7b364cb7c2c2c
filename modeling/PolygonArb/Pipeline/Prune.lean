import PolygonArb.Pipeline.ActiveGraph

/-!
# The prune of the cycle search

`can_still_be_profitable_u256` of `pipeline/cycle_finder.rs`.  A path prefix is given up when even the
best edge out of its token, followed by the best edge of the graph for every hop that is left, does
not bring its ratio above one.  Both bests are taken over direct edges only.

`canStillBeProfitable_sound`: no prefix of a profitable cycle is given up as long as it needs no hub to
get above one, or the hub hops of the rest of the cycle keep to those bests.  `canStillBeProfitable_rejects_hub` is one that does not.
-/

namespace PolygonArb

open Word

/-- The optimistic product rises above one within `n` more hops. -/
def exceedsOneWithin (globalMaxRatio : U256) : U256 → ℕ → Bool
  | _, 0 => false
  | optimistic, n + 1 =>
      let next := mulRatioSaturating optimistic globalMaxRatio
      if one18 < next then true else exceedsOneWithin globalMaxRatio next n

def canStillBeProfitableU256 (productRatio : U256) (hops hopCap : ℕ) (curr : TokenIndex)
    (maxOutgoingRatio : List U256) (globalMaxRatio : U256) : Bool :=
  if one18 < productRatio ∧ minProfitableCycleRatio hops ≤ productRatio then true
  else
    let remaining := hopCap - hops
    if remaining = 0 then false
    else
      let first := (maxOutgoingRatio[curr]?).getD one18
      if first < one18 then false
      else
        let optimistic := mulRatioSaturating productRatio first
        if one18 < optimistic then true
        else if 1 < remaining ∧ one18 ≤ globalMaxRatio then
          exceedsOneWithin globalMaxRatio optimistic (remaining - 1)
        else false

/-! ## The product -/

lemma toNat_mulRatioSaturating (a b : U256) :
    (mulRatioSaturating a b).toNat = min (a.toNat * b.toNat / 10 ^ 18) (2 ^ 256 - 1) := by
  have ha := toNat_lt a
  have hb := toNat_lt b
  rw [mulRatioSaturating, mulRatio]
  split_ifs with hzero ha1 hb1
  · rcases hzero with rfl | rfl <;> simp
  · rw [ha1, toNat_one18, Option.getD_some, Nat.mul_div_cancel_left _ (by norm_num)]
    omega
  · rw [hb1, toNat_one18, Option.getD_some, Nat.mul_div_cancel _ (by norm_num)]
    omega
  · rw [toNat_one18]
    cases hprod : ofNatChecked (a.toNat * b.toNat / 10 ^ 18) with
    | none =>
        have hle := ofNatChecked_eq_none.mp hprod
        rw [Option.getD_none, toNat_maxValue]
        omega
    | some c =>
        have heq := ofNatChecked_eq_some.mp hprod
        have hc := toNat_lt c
        rw [Option.getD_some]
        omega

lemma mulRatioSaturating_mono {a a' b b' : U256} (ha : a ≤ a') (hb : b ≤ b') :
    mulRatioSaturating a b ≤ mulRatioSaturating a' b' := by
  rw [le_iff] at ha hb ⊢
  rw [toNat_mulRatioSaturating, toNat_mulRatioSaturating]
  exact min_le_min_right _ (Nat.div_le_div_right (Nat.mul_le_mul ha hb))

lemma toNat_mulRatioSaturating_one (a : U256) : (mulRatioSaturating a one18).toNat = a.toNat := by
  have ha := toNat_lt a
  rw [toNat_mulRatioSaturating, toNat_one18, Nat.mul_div_cancel _ (by norm_num)]
  omega

/-- The ratio of a path: the forward fold over its hops. -/
def foldRatio (product : U256) (ratios : List U256) : U256 := ratios.foldl mulRatioSaturating product

/-- If a product below the optimistic one gets above one, so does the optimistic one. -/
lemma exceedsOne_of_foldRatio {globalMax : U256} {ratios : List U256}
    (hratios : ∀ r ∈ ratios, r ≤ globalMax) :
    ∀ {product optimistic : U256} {n : ℕ}, product ≤ optimistic → ratios.length ≤ n →
      one18 < foldRatio product ratios →
        one18 < optimistic ∨ exceedsOneWithin globalMax optimistic n = true := by
  induction ratios with
  | nil =>
      intro product optimistic n hle _ habove
      exact .inl (Nat.lt_of_lt_of_le habove hle)
  | cons r ratios ih =>
      intro product optimistic n hle hlen habove
      cases n with
      | zero => simp at hlen
      | succ n =>
          have hstep : mulRatioSaturating product r ≤ mulRatioSaturating optimistic globalMax :=
            mulRatioSaturating_mono hle (hratios r List.mem_cons_self)
          rw [List.length_cons] at hlen
          refine .inr ?_
          rw [exceedsOneWithin]
          split_ifs with hnow
          · rfl
          · exact (ih (fun r' hr' => hratios r' (List.mem_cons_of_mem r hr')) hstep (by omega)
              habove).resolve_left hnow

/-- A prefix is kept when the rest of its path stays within the two bests. -/
lemma canStillBeProfitable_of_foldRatio {product globalMax ratio : U256} {hops hopCap : ℕ}
    {curr : TokenIndex} {maxOutgoing ratios : List U256}
    (hfirst : one18 ≤ (maxOutgoing[curr]?).getD one18) (hglobal : one18 ≤ globalMax)
    (hratio : ratio ≤ (maxOutgoing[curr]?).getD one18) (hratios : ∀ r ∈ ratios, r ≤ globalMax)
    (hlen : hops + (ratios.length + 1) ≤ hopCap)
    (habove : one18 < foldRatio product (ratio :: ratios)) :
    canStillBeProfitableU256 product hops hopCap curr maxOutgoing globalMax = true := by
  have hnext : mulRatioSaturating product ratio ≤
      mulRatioSaturating product ((maxOutgoing[curr]?).getD one18) :=
    mulRatioSaturating_mono (BitVec.le_refl product) hratio
  have hbound := exceedsOne_of_foldRatio hratios hnext (n := hopCap - hops - 1) (by omega) habove
  rw [canStillBeProfitableU256]
  split_ifs with hdone
  · rfl
  dsimp only
  have hremaining : hopCap - hops ≠ 0 := by omega
  have hnot : ¬ (maxOutgoing[curr]?).getD one18 < one18 := by
    rw [lt_iff]
    rw [le_iff] at hfirst
    omega
  rw [if_neg hremaining, if_neg hnot]
  rcases hbound with hnow | hlater
  · rw [if_pos hnow]
  · have hmore : 1 < hopCap - hops := by
      by_contra hone
      have hzero : hopCap - hops - 1 = 0 := by omega
      rw [hzero] at hlater
      cases hlater
    have hboth : 1 < hopCap - hops ∧ one18 ≤ globalMax := ⟨hmore, hglobal⟩
    rw [if_pos hboth, hlater, ite_self]

/-! ## The bests of the active graph -/

lemma le_foldl_raise {α : Type} (f : U256 → α → U256) (hf : ∀ best x, best ≤ f best x) :
    ∀ (xs : List α) (best : U256), best ≤ xs.foldl f best := by
  intro xs
  induction xs with
  | nil => exact fun best => BitVec.le_refl best
  | cons x xs ih => exact fun best => BitVec.le_trans (hf best x) (ih (f best x))

lemma mem_le_foldl_raise (f : U256 → U256 → U256) (hf : ∀ best x, best ≤ f best x)
    (hx : ∀ best x, one18 ≤ best → x ≤ f best x) :
    ∀ (xs : List U256) (best : U256), one18 ≤ best → ∀ x ∈ xs, x ≤ xs.foldl f best := by
  intro xs
  induction xs with
  | nil =>
      intro best _ x hmem
      cases hmem
  | cons y xs ih =>
      intro best hbest x hmem
      rcases List.mem_cons.mp hmem with rfl | hmem
      · exact BitVec.le_trans (hx best x hbest) (le_foldl_raise f hf xs (f best x))
      · exact ih (f best y) (BitVec.le_trans hbest (hf best y)) x hmem

lemma le_raiseRatio (best ratio : U256) : best ≤ raiseRatio best ratio := by
  rw [raiseRatio]
  split_ifs with h
  · rw [le_iff]
    exact (lt_iff.mp h.2).le
  · exact BitVec.le_refl best

/-- A ratio below one is below every best. -/
lemma ratio_le_raiseRatio {best ratio : U256} (hbest : one18 ≤ best) : ratio ≤ raiseRatio best ratio := by
  rw [raiseRatio]
  split_ifs with h
  · exact BitVec.le_refl ratio
  · rw [le_iff] at hbest ⊢
    rw [le_iff, lt_iff] at h
    omega

lemma le_raise (best ratio : U256) : best ≤ if best < ratio then ratio else best := by
  split_ifs with h
  · rw [le_iff]
    exact (lt_iff.mp h).le
  · exact BitVec.le_refl best

lemma ratio_le_raise (best ratio : U256) : ratio ≤ if best < ratio then ratio else best := by
  split_ifs with h
  · exact BitVec.le_refl ratio
  · rw [lt_iff] at h
    rw [le_iff]
    omega

section Tables

variable {graph : RoutingGraph} {coverage : CycleCapableCoverage} {incidences : List Incidence}
  {ge : GraphEdge} {node : ℕ}

lemma one_le_maxOutgoingRatio_prepNode : one18 ≤ (prepNode graph coverage node).maxOutgoingRatio := by
  rw [prepNode]
  split_ifs
  · exact BitVec.le_refl one18
  · exact le_foldl_raise raiseRatio le_raiseRatio _ one18
  · exact BitVec.le_refl one18

/-- No direct edge of a token beats its best. -/
lemma ratio_le_maxOutgoingRatio_prepNode (hnode : node < graph.tokenCount)
    (hmem : ge ∈ (prepNode graph coverage node).live) (hphase : ge.phase = .direct) :
    ge.ratio ≤ (prepNode graph coverage node).maxOutgoingRatio := by
  have hkept := mem_live_prepNode.mp hmem
  have hcapable : ¬ (node < graph.tokenCount ∧ coverage.isTokenCapable node = false) := by
    rintro ⟨-, hdropped⟩
    rw [hkept.2.2 hnode] at hdropped
    cases hdropped
  rw [prepNode, if_neg hcapable]
  dsimp only
  rw [if_pos hnode]
  refine mem_le_foldl_raise raiseRatio le_raiseRatio (fun _ _ => ratio_le_raiseRatio) _ one18
    (BitVec.le_refl one18) _ (List.mem_map_of_mem ?_)
  simp [List.mem_filter, hkept.1, hkept.2.1, hphase]

/-- The best of a token in the table of the active graph. -/
lemma maxOutgoingRatio_prepareActiveGraph (hnode : node < graph.tokenCount)
    (hadj : node < graph.adjacency.length) :
    ((prepareActiveGraph graph incidences).maxOutgoingRatio[node]?).getD one18 =
      (prepNode graph (activeCoverage graph incidences) node).maxOutgoingRatio := by
  simp [prepareActiveGraph, hnode, hadj]

lemma one_le_maxOutgoingRatio (incidences : List Incidence) (node : ℕ) :
    one18 ≤ ((prepareActiveGraph graph incidences).maxOutgoingRatio[node]?).getD one18 := by
  by_cases hnode : node < graph.tokenCount
  · by_cases hadj : node < graph.adjacency.length
    · rw [maxOutgoingRatio_prepareActiveGraph hnode hadj]
      exact one_le_maxOutgoingRatio_prepNode
    · simp [prepareActiveGraph, hnode, hadj]
  · simp [prepareActiveGraph, hnode]

lemma one_le_globalMax (incidences : List Incidence) :
    one18 ≤ (prepareActiveGraph graph incidences).globalMaxLiveEdgeRatio :=
  le_foldl_raise _ le_raise _ one18

/-- The best of a token is at most the best of the graph. -/
lemma maxOutgoingRatio_le_globalMax (hnode : node < graph.tokenCount)
    (hadj : node < graph.adjacency.length) :
    (prepNode graph (activeCoverage graph incidences) node).maxOutgoingRatio ≤
      (prepareActiveGraph graph incidences).globalMaxLiveEdgeRatio := by
  refine mem_le_foldl_raise _ le_raise (fun best ratio _ => ratio_le_raise best ratio) _ one18
    (BitVec.le_refl one18) _ (List.mem_map_of_mem ?_)
  refine List.mem_of_getElem? (i := node) ?_
  rw [List.getElem?_take_of_lt hnode]
  simp [hadj]

end Tables

/-! ## The rest of a cycle -/

/-- A hop the search can take: where it leads, its ratio, and whether it goes through a hub. -/
structure SearchHop where
  pool : PoolIndex
  tokenOut : TokenIndex
  ratio : U256
  viaHub : Bool

/-- The hops out of a token: its direct edges, and the exits of the hubs it enters at their present
price. -/
inductive HopFrom (graph : RoutingGraph) (arena : StateArena) (poolMetas : ℕ → Option PoolMeta)
    (active : ActiveGraph) (token : TokenIndex) : SearchHop → Prop
  | direct {ge : GraphEdge} (mem : ge ∈ active.edgesAt token) (phase : ge.phase = .direct)
      (live : ge.ratio ≠ 0) :
      HopFrom graph arena poolMetas active token
        ⟨ge.edge.poolIndex, ge.edge.tokenOut, ge.ratio, false⟩
  | hub {ge : GraphEdge} {pool : PoolMeta} {state : PoolState} {leg : ℕ} {tokenOut : TokenIndex}
      {edge : Edge} {weight : Float} {ratio : U256} (mem : ge ∈ active.edgesAt token)
      (phase : ge.phase = .enterPool) (hmeta : poolMetas ge.edge.poolIndex = some pool)
      (hstate : arena.poolState ge.edge.poolIndex = some state)
      (hleg : leg ∈ hubExitLegs graph ge.targetNode pool state) (hother : leg ≠ ge.edge.tokenInIdx)
      (htoken : routingTokenAtLeg arena state pool leg = some tokenOut)
      (hswap : resolveLazySwapEdge arena (.ofEdge ge.edge) tokenOut leg =
        some (some (edge, weight, ratio))) :
      HopFrom graph arena poolMetas active token ⟨ge.edge.poolIndex, tokenOut, ratio, true⟩

/-- The way from one token to another over the hops of the active graph. -/
inductive PathFrom (graph : RoutingGraph) (arena : StateArena) (poolMetas : ℕ → Option PoolMeta)
    (active : ActiveGraph) : TokenIndex → List SearchHop → TokenIndex → Prop
  | done {token : TokenIndex} : PathFrom graph arena poolMetas active token [] token
  | hop {token last : TokenIndex} {hop : SearchHop} {rest : List SearchHop}
      (node : token < graph.tokenCount) (from_token : HopFrom graph arena poolMetas active token hop)
      (path : PathFrom graph arena poolMetas active hop.tokenOut rest last) :
      PathFrom graph arena poolMetas active token (hop :: rest) last

/-- The hub hops keep to the bests of the direct edges: the first to that of its token, the others to
that of the graph. -/
def HubsWithin (active : ActiveGraph) (token : TokenIndex) : List SearchHop → Prop
  | [] => True
  | hop :: rest =>
      (hop.viaHub = true → hop.ratio ≤ (active.maxOutgoingRatio[token]?).getD one18) ∧
        ∀ h ∈ rest, h.viaHub = true → h.ratio ≤ active.globalMaxLiveEdgeRatio

/-- The prefix is above one already, or a direct edge out of its token takes it there. -/
def LiftedByDirect (active : ActiveGraph) (token : TokenIndex) (product : U256) : Prop :=
  one18 < product ∨ ∃ ge ∈ active.edgesAt token,
    ge.phase = .direct ∧ one18 < mulRatioSaturating product ge.ratio

section Sound

variable {graph : RoutingGraph} {arena : StateArena} {poolMetas : ℕ → Option PoolMeta}
  {incidences : List Incidence} {token last : TokenIndex} {hop : SearchHop} {rest : List SearchHop}

lemma lt_length_of_mem_edgesAt {ge : GraphEdge} {node : ℕ}
    (h : ge ∈ (prepareActiveGraph graph incidences).edgesAt node) : node < graph.adjacency.length := by
  rcases exists_of_mem_edgesAt (mem_edgesAt_prepareActiveGraph.mp h).1 with ⟨edges, hget, -⟩
  exact (List.getElem?_eq_some_iff.mp hget).1

/-- A direct hop keeps to the best of its token, and that to the best of the graph. -/
lemma HopFrom.ratio_le (h : HopFrom graph arena poolMetas (prepareActiveGraph graph incidences) token hop)
    (hnode : token < graph.tokenCount) (hdirect : hop.viaHub = false) :
    hop.ratio ≤ ((prepareActiveGraph graph incidences).maxOutgoingRatio[token]?).getD one18 ∧
      hop.ratio ≤ (prepareActiveGraph graph incidences).globalMaxLiveEdgeRatio := by
  cases h with
  | @direct ge hmem hphase hlive =>
      have hadj : token < graph.adjacency.length := lt_length_of_mem_edgesAt hmem
      have hbest : ge.ratio ≤
          (prepNode graph (activeCoverage graph incidences) token).maxOutgoingRatio :=
        ratio_le_maxOutgoingRatio_prepNode hnode
          (mem_live_prepNode.mpr (mem_edgesAt_prepareActiveGraph.mp hmem)) hphase
      rw [maxOutgoingRatio_prepareActiveGraph hnode hadj]
      exact ⟨hbest, BitVec.le_trans hbest (maxOutgoingRatio_le_globalMax hnode hadj)⟩
  | hub => cases hdirect

/-- Every hop of a path keeps to the best of the graph when its hub hops do. -/
lemma PathFrom.ratio_le
    (h : PathFrom graph arena poolMetas (prepareActiveGraph graph incidences) token rest last) :
    (∀ h ∈ rest, h.viaHub = true →
      h.ratio ≤ (prepareActiveGraph graph incidences).globalMaxLiveEdgeRatio) →
    ∀ r ∈ rest.map SearchHop.ratio, r ≤ (prepareActiveGraph graph incidences).globalMaxLiveEdgeRatio := by
  induction h with
  | done =>
      intro _ r hr
      cases hr
  | @hop token last hop rest hnode hfrom hpath ih =>
      intro hhubs r hr
      rcases List.mem_cons.mp hr with rfl | hr
      · cases hvia : hop.viaHub with
        | true => exact hhubs hop List.mem_cons_self hvia
        | false => exact (hfrom.ratio_le hnode hvia).2
      · exact ih (fun h hmem => hhubs h (List.mem_cons_of_mem hop hmem)) r hr

/-- A prefix that is above one, or is lifted above one by a direct edge of its token, is kept as long
as a hop is left, whatever the hubs pay. -/
lemma canStillBeProfitable_of_lifted {product : U256} {hops hopCap : ℕ} (hnode : token < graph.tokenCount)
    (hmore : hops < hopCap) (hlifted : LiftedByDirect (prepareActiveGraph graph incidences) token product) :
    canStillBeProfitableU256 product hops hopCap token
      (prepareActiveGraph graph incidences).maxOutgoingRatio
      (prepareActiveGraph graph incidences).globalMaxLiveEdgeRatio = true := by
  have hfirst : one18 ≤ ((prepareActiveGraph graph incidences).maxOutgoingRatio[token]?).getD one18 :=
    one_le_maxOutgoingRatio incidences token
  have hoptimistic : one18 < mulRatioSaturating product
      (((prepareActiveGraph graph incidences).maxOutgoingRatio[token]?).getD one18) := by
    rcases hlifted with habove | ⟨ge, hmem, hphase, habove⟩
    · have hraised : mulRatioSaturating product one18 ≤ mulRatioSaturating product
          (((prepareActiveGraph graph incidences).maxOutgoingRatio[token]?).getD one18) :=
        mulRatioSaturating_mono (BitVec.le_refl product) hfirst
      rw [le_iff, toNat_mulRatioSaturating_one] at hraised
      exact Nat.lt_of_lt_of_le habove hraised
    · have hbest : ge.ratio ≤
          ((prepareActiveGraph graph incidences).maxOutgoingRatio[token]?).getD one18 := by
        rw [maxOutgoingRatio_prepareActiveGraph hnode (lt_length_of_mem_edgesAt hmem)]
        exact ratio_le_maxOutgoingRatio_prepNode hnode
          (mem_live_prepNode.mpr (mem_edgesAt_prepareActiveGraph.mp hmem)) hphase
      exact Nat.lt_of_lt_of_le habove (mulRatioSaturating_mono (BitVec.le_refl product) hbest)
  have hremaining : hopCap - hops ≠ 0 := by omega
  have hnot : ¬ ((prepareActiveGraph graph incidences).maxOutgoingRatio[token]?).getD one18 < one18 := by
    rw [lt_iff]
    rw [le_iff] at hfirst
    omega
  simp only [canStillBeProfitableU256, if_neg hremaining, if_neg hnot, if_pos hoptimistic, ite_self]

/-- A path prefix that goes on to a profitable cycle within the hop limit is not given up, as long as
it is lifted above one without the hubs, or the hub hops that are left keep to the bests of the direct
edges. -/
theorem canStillBeProfitable_sound {product : U256} {hops hopCap : ℕ}
    (hpath : PathFrom graph arena poolMetas (prepareActiveGraph graph incidences) token rest last)
    (hwithin : LiftedByDirect (prepareActiveGraph graph incidences) token product ∨
      HubsWithin (prepareActiveGraph graph incidences) token rest)
    (hlen : hops + rest.length ≤ hopCap)
    (habove : one18 < foldRatio product (rest.map SearchHop.ratio))
    (hmin : minProfitableCycleRatio (hops + rest.length) ≤
      foldRatio product (rest.map SearchHop.ratio)) :
    canStillBeProfitableU256 product hops hopCap token
      (prepareActiveGraph graph incidences).maxOutgoingRatio
      (prepareActiveGraph graph incidences).globalMaxLiveEdgeRatio = true := by
  cases hpath with
  | done => exact if_pos ⟨habove, hmin⟩
  | @hop _ _ hop rest hnode hfrom hpath =>
      rw [List.length_cons] at hlen
      rcases hwithin with hlifted | hwithin
      · exact canStillBeProfitable_of_lifted hnode (by omega) hlifted
      have hratio : hop.ratio ≤
          ((prepareActiveGraph graph incidences).maxOutgoingRatio[token]?).getD one18 := by
        cases hvia : hop.viaHub with
        | true => exact hwithin.1 hvia
        | false => exact (hfrom.ratio_le hnode hvia).1
      exact canStillBeProfitable_of_foldRatio (one_le_maxOutgoingRatio incidences token)
        (one_le_globalMax incidences) hratio (hpath.ratio_le hwithin.2) (by simpa using hlen) habove

end Sound

/-! ### A hub that pays five percent -/

/-- An even Balancer pool over two tokens that pays five percent for the second. -/
def hubPool : PoolState :=
  .balancer
    { poolId := none
      tokens := [0xa0000#160, 0xb0000#160]
      balances := [105000000000000000000000#256, 100000000000000000000000#256]
      weights := [500000000000000000#256, 500000000000000000#256]
      scalingFactors := [one18, one18]
      amp := 0
      ampPrecision := 0
      fee := 1000000000000000#256
      poolType := .weighted
      linear := none
      bptIndex := none
      isUpdating := false
      lastChangeBlock := 0 }

def hubArena : StateArena where
  inner :=
    { tokens := [0xa0000#160, 0xb0000#160]
      tokenDecimals := [18, 18]
      pools := [⟨none, .invalid⟩, ⟨none, hubPool⟩, ⟨none, .invalid⟩]
      poolAddresses := [0x10000#160, 0x20000#160, 0x30000#160]
      addressToPool := fun _ => none
      addressToToken := fun a =>
        if a = 0xa0000#160 then some 0 else if a = 0xb0000#160 then some 1 else none
      layoutFingerprint := 0 }
  hotOverlay := []
  hotRevisions := []

def hubMetas : ℕ → Option PoolMeta :=
  indexPoolMetas [⟨1, .balancerV2, [0, 1], 10, none, none⟩]

/-- The way from a token into the hub, or from the hub to a token. -/
def hubEdge (phase : GraphHopPhase) (token target : ℕ) : GraphEdge where
  edge :=
    { poolIndex := 1
      tokenIn := token
      tokenOut := token
      tokenInIdx := token
      tokenOutIdx := token
      protocol := .balancerV2
      feeBps := 10
      zeroForOne := true }
  phase := phase
  targetNode := target
  logWeight := 0.0
  ratio := one18

/-- Token 0 to token 1 at a loss of one percent, and back through the hub.  A rival pair goes back
too, unless its ratio is zero. -/
def hubGraph (rival : U256) : RoutingGraph where
  adjacency :=
    [[directEdge 0 0 1 990000000000000000#256, hubEdge .enterPool 0 2],
      [hubEdge .enterPool 1 2, directEdge 2 1 0 rival],
      [hubEdge .exitPool 0 0, hubEdge .exitPool 1 1]]
  tokenCount := 2
  virtualHubs := [⟨1, .balancerV2, [0, 1]⟩]
  poolSlots := 3
  coverage := none

/-- The swap the search makes of entering the hub at token 1 and leaving it at token 0. -/
def hubSwap : Edge := ⟨1, 1, 0, 1, 0, .balancerV2, 10, false⟩

def hubHop : SearchHop := ⟨1, 0, 1048949989605000000#256, true⟩

/-- The hop through the hub is there whenever token 1 is in the coverage. -/
lemma pathFrom_hubHop {rival : U256} {incidences : List Incidence}
    (hcapable : (cycleCapableCoverage (hubGraph rival) incidences).isTokenCapable 1 = true) :
    PathFrom (hubGraph rival) hubArena hubMetas (prepareActiveGraph (hubGraph rival) incidences) 1
      [hubHop] 0 := by
  have hmem : hubEdge .enterPool 1 2 ∈ (prepareActiveGraph (hubGraph rival) incidences).edgesAt 1 :=
    mem_edgesAt_prepareActiveGraph.mpr ⟨List.mem_cons_self, rfl, fun _ => hcapable⟩
  have hratio : computeEdgeRatio hubArena hubSwap = some 1048949989605000000#256 := by
    decide
  have hedge : lazySwapEdge hubArena (.ofEdge (hubEdge .enterPool 1 2).edge) 0 0 = some hubSwap := by
    decide
  have hswap : ∃ weight, resolveLazySwapEdge hubArena (.ofEdge (hubEdge .enterPool 1 2).edge) 0 0 =
      some (some (hubSwap, weight, 1048949989605000000#256)) := by
    simp only [resolveLazySwapEdge, hedge, hratio, Option.map_some]
    exact ⟨_, congrArg some (if_neg (by decide))⟩
  have hleg : 0 ∈ hubExitLegs (hubGraph rival) 2 ⟨1, .balancerV2, [0, 1], 10, none, none⟩ hubPool := by
    have hlegs : fundedTokenIndices hubPool ⟨1, .balancerV2, [0, 1], 10, none, none⟩ = [0, 1] := by
      decide
    simp [hubExitLegs, hlegs]
  rcases hswap with ⟨weight, hswap⟩
  exact .hop (show 1 < 2 by decide) (.hub hmem rfl rfl rfl hleg (by decide) rfl hswap) .done

/-- With a rival pair at ten percent the hub hop keeps to the best, and the prefix is kept. -/
theorem canStillBeProfitable_sound_rival :
    one18 < foldRatio 990000000000000000#256 ([hubHop].map SearchHop.ratio) ∧
      canStillBeProfitableU256 990000000000000000#256 1 2 1
        (prepareActiveGraph (hubGraph 1100000000000000000#256)
          [(0, 0), (0, 1), (1, 0), (1, 1), (2, 1), (2, 0)]).maxOutgoingRatio
        (prepareActiveGraph (hubGraph 1100000000000000000#256)
          [(0, 0), (0, 1), (1, 0), (1, 1), (2, 1), (2, 0)]).globalMaxLiveEdgeRatio = true := by
  have habove : one18 < foldRatio 990000000000000000#256 ([hubHop].map SearchHop.ratio) := by
    decide
  refine ⟨habove, canStillBeProfitable_sound (pathFrom_hubHop (by decide)) ?_ (by decide)
    habove (by decide)⟩
  refine .inr ⟨fun _ => ?_, by simp⟩
  decide

/-- Without the rival the prefix is given up, though the hub brings it back with almost four percent. -/
theorem canStillBeProfitable_rejects_hub :
    HopFrom (hubGraph 0) hubArena hubMetas
        (prepareActiveGraph (hubGraph 0) [(0, 0), (0, 1), (1, 0), (1, 1)]) 0
        ⟨0, 1, 990000000000000000#256, false⟩ ∧
      PathFrom (hubGraph 0) hubArena hubMetas
        (prepareActiveGraph (hubGraph 0) [(0, 0), (0, 1), (1, 0), (1, 1)]) 1 [hubHop] 0 ∧
      one18 < foldRatio 990000000000000000#256 ([hubHop].map SearchHop.ratio) ∧
      minProfitableCycleRatio 2 ≤ foldRatio 990000000000000000#256 ([hubHop].map SearchHop.ratio) ∧
      canStillBeProfitableU256 990000000000000000#256 1 2 1
        (prepareActiveGraph (hubGraph 0) [(0, 0), (0, 1), (1, 0), (1, 1)]).maxOutgoingRatio
        (prepareActiveGraph (hubGraph 0) [(0, 0), (0, 1), (1, 0), (1, 1)]).globalMaxLiveEdgeRatio =
        false := by
  have hcapable : ∀ token < 2, (cycleCapableCoverage (hubGraph 0)
      [(0, 0), (0, 1), (1, 0), (1, 1)]).isTokenCapable token = true := by
    decide
  have hmem : directEdge 0 0 1 990000000000000000#256 ∈
      (prepareActiveGraph (hubGraph 0) [(0, 0), (0, 1), (1, 0), (1, 1)]).edgesAt 0 :=
    mem_edgesAt_prepareActiveGraph.mpr ⟨List.mem_cons_self, by decide, fun h => hcapable 0 h⟩
  exact ⟨.direct hmem rfl (by decide), pathFrom_hubHop (hcapable 1 (by decide)), by decide, by decide,
    by decide⟩

end PolygonArb

import PolygonArb.Lib.BreadthFirst
import PolygonArb.Pipeline.GraphRun
import PolygonArb.Services.RouteAssess

/-!
# Hub-path rates

`services/oracle/hub_path_rates.rs`: the MATIC rate of a token from a probe swap along a shortest live path
to WMATIC.  One search backward from WMATIC serves all tokens of a batch; where a token has a second first
hop at the same depth through another pool, its rate checks the first one.

The search is the one of `Lib/BreadthFirst.lean` over the reverse adjacency.  Its depths stay below the
number of tokens, so `u32::MAX` for a token that was not reached is `none` here.
-/

namespace PolygonArb

open Word Loop

/-- Reverse adjacency entry: the token a hop comes from, and its edge. -/
abbrev RevHop := TokenIndex × Edge

/-! ## The reverse adjacency -/

section Build

variable (arena : StateArena) (graph : RoutingGraph) (poolMetas : Option (List PoolMeta))

def pushHop (rev : List (List RevHop)) (token : TokenIndex) (hop : RevHop) : List (List RevHop) :=
  rev.modify token fun hops => hops ++ [hop]

/-- The hub swap to one token, unless it is the token it comes from or has no slot. -/
def pairSwapHop (src : TokenIndex) (pending : PendingHubSwap) (rev : List (List RevHop)) (out : TokenIndex)
    (outLeg : ℕ) : Run (Option (List (List RevHop))) :=
  if graph.tokenCount ≤ out ∨ out = src then some none
  else
    (resolveLazySwapEdge arena pending out outLeg).map fun swap =>
      swap.map fun (edge, _, _) => pushHop rev out (src, edge)

/-- One exit of the hub, paired with the way in; the flag says whether any was. -/
def pairExit (src : TokenIndex) (pending : PendingHubSwap) (found : List (List RevHop) × Bool)
    (exit : GraphEdge) : Run (List (List RevHop) × Bool) :=
  if exit.phase ≠ .exitPool then some found
  else if exit.edge.poolIndex ≠ pending.poolIndex then some found
  else
    (pairSwapHop arena graph src pending found.1 exit.targetNode exit.edge.tokenOutIdx).map fun rev =>
      (rev.map fun rev => (rev, true)).getD found

def fundedHop (src : TokenIndex) (pending : PendingHubSwap) (state : PoolState) (pool : PoolMeta)
    (rev : List (List RevHop)) (outLeg : ℕ) : Run (List (List RevHop)) :=
  if outLeg = pending.tokenInIdx then some rev
  else
    match routingTokenAtLeg arena state pool outLeg with
    | none => some rev
    | some out => (pairSwapHop arena graph src pending rev out outLeg).map fun pushed => pushed.getD rev

/-- Enter and exit as one swap hop; without a paired exit, the funded legs of the pool. -/
def enterHops (src : TokenIndex) (ge : GraphEdge) (rev : List (List RevHop)) :
    Run (List (List RevHop)) :=
  match graph.adjacency[ge.targetNode]? with
  | none => some rev
  | some hubAdj => do
      let pending : PendingHubSwap :=
        { poolIndex := ge.edge.poolIndex
          tokenIn := src
          tokenInIdx := ge.edge.tokenInIdx
          protocol := ge.edge.protocol
          feeBps := ge.edge.feeBps }
      let (rev, paired) ← hubAdj.foldlM (pairExit arena graph src pending) (rev, false)
      if paired then some rev
      else
        match poolMetas.bind fun metas => indexPoolMetas metas pending.poolIndex,
          arena.poolState pending.poolIndex with
        | some pool, some state =>
            (fundedTokenIndices state pool).foldlM (fundedHop arena graph src pending state pool) rev
        | _, _ => some rev

def edgeHops (src : TokenIndex) (rev : List (List RevHop)) (ge : GraphEdge) :
    Run (List (List RevHop)) :=
  match ge.phase with
  | .direct =>
      if isLiveGraphEdge ge && decide (ge.edge.tokenOut < graph.tokenCount) then
        some (pushHop rev ge.edge.tokenOut (src, ge.edge))
      else some rev
  | .enterPool => enterHops arena graph poolMetas src ge rev
  | .exitPool => some rev

/-- Direct and resolved hub hops, by the token they lead to. -/
def buildReverseHops : Run (List (List RevHop)) :=
  (graph.adjacency.take graph.tokenCount).zipIdx.foldlM
    (fun rev (adj, src) => adj.foldlM (edgeHops arena graph poolMetas src) rev)
    (List.replicate graph.tokenCount [])

end Build

/-! ## The search -/

section Search

variable (rev : List (List RevHop)) (wmatic : TokenIndex) (maxHops : ℕ)

/-- The hops into a token. -/
def hopsInto (token : TokenIndex) : List RevHop := (rev[token]?).getD []

/-- An alternate first hop is one through another pool. -/
def otherPool (first other : Edge) : Bool := first.poolIndex ≠ other.poolIndex

/-- `parent` and `alt` of one search from WMATIC over the tokens that have a slot. -/
def reverseBfsParents : (TokenIndex → Option RevHop) × (TokenIndex → Option RevHop) :=
  if rev.length ≤ wmatic then (fun _ => none, fun _ => none)
  else
    let found := BreadthFirst.search (Finset.range rev.length) otherPool (hopsInto rev) (max maxHops 1)
      wmatic
    (found.parent, found.alt)

end Search

section Paths

variable (parent : TokenIndex → Option RevHop) (slots : ℕ) (token wmatic : TokenIndex)

/-- The walk is bounded by the length of the parent table, `slots`. -/
def reconstructPathWithFirst (first : Option RevHop) : Option (List Edge) :=
  if token = wmatic then some []
  else
    match slots with
    | 0 => none
    | n + 1 =>
        match first.or (parent token) with
        | none => none
        | some (next, edge) => BreadthFirst.follow parent wmatic n next [edge]

def reconstructPath : Option (List Edge) := reconstructPathWithFirst parent slots token wmatic none

end Paths

/-! ## The rates -/

structure HubPathRateParams where
  enabled : Bool
  maxHops : ℕ

/-- `HUB_DUAL_PATH_MAX_DIVERGE_BPS`. -/
def hubDualPathMaxDivergeBps : ℕ := 2000

def wmaticAddress : Address := 0x0d500B1d8E8eF31E21C99d1Db9A6444d3ADf1270#160

/-- Relative divergence: `|a - b| * 10_000 / max(a, b)`. -/
def ratesDivergeBps (a b : U256) : ℕ :=
  let (hi, lo) := if b ≤ a then (a, b) else (b, a)
  if hi = 0 then 0
  else (min ((mulDivFloor (hi - lo) 10000#256 hi).getD 10000#256) 10000#256).toNat

section Rates

variable (arena : StateArena) (tokenDecimals : Option DecimalMap)

/-- With hints wired, decimals are never guessed. -/
def probeDecimals (token : TokenIndex) : Option ℕ :=
  match tokenDecimals with
  | some hints => (explicitDecimalsForIndex token arena hints).map BitVec.toNat
  | none => some (arena.tokenDecimals token)

/-- MATIC wei per whole token at one probe. -/
def rateAtProbe (edges : List Edge) (scale probe : U256) : Run (Option U256) :=
  if probe = 0 then some none
  else
    (simulateRouteMinimal arena edges probe).map fun sim => do
      let sim ← sim
      if sim.amountOut = 0 then none
      else
        let rate ← (checkedMul sim.amountOut scale).map (· / probe)
        if minTokenToMaticRate ≤ rate then some rate else none

/-- Micro probe first, then spot. -/
def maticRateFromProbeSimWithDecimals (token : TokenIndex) (edges : List Edge) : Run (Option U256) :=
  if edges = [] then some none
  else
    match probeDecimals arena tokenDecimals token with
    | none => some none
    | some decimals =>
        if maxSupportedTokenDecimals < decimals then some none
        else do
          let micro := if 6 ≤ decimals then tenPowU256 (decimals - 6) else 1#256
          match ← rateAtProbe arena edges (tenPowU256 decimals) micro with
          | some rate => some (some rate)
          | none => rateAtProbe arena edges (tenPowU256 decimals) (spotProbeForDecimals decimals)

/-- The rate of a path that may be missing. -/
def pathRate (token : TokenIndex) : Option (List Edge) → Run (Option U256)
  | none => some none
  | some path => maticRateFromProbeSimWithDecimals arena tokenDecimals token path

/-- The smaller rate of two that agree, the one there is, and none of two that do not. -/
def publishedRate : Option U256 → Option U256 → Option U256
  | some a, some b => if hubDualPathMaxDivergeBps < ratesDivergeBps a b then none else some (min a b)
  | some a, none => some a
  | none, some b => some b
  | none, none => none

variable (parent alt : TokenIndex → Option RevHop) (slots : ℕ) (wmatic token : TokenIndex)

/-- The path by the alternate first hop, when there is one. -/
def alternatePath : Option (List Edge) :=
  ((alt token).bind fun first => reconstructPathWithFirst parent slots token wmatic (some first)).filter
    (· ≠ [])

def hubRate : Run (Option U256) :=
  match reconstructPath parent slots token wmatic with
  | none => some none
  | some [] => some none
  | some path => do
      let primary ← maticRateFromProbeSimWithDecimals arena tokenDecimals token path
      let altRate ← pathRate arena tokenDecimals token (alternatePath parent alt slots wmatic token)
      some (publishedRate primary altRate)

def priceToken (out : TokenRates) (token : TokenIndex) : Run TokenRates :=
  if (out token).isSome then some out
  else
    (hubRate arena tokenDecimals parent alt slots wmatic token).map fun rate =>
      match rate with
      | none => out
      | some rate => Function.update out token (some rate)

end Rates

/-- Rates of the tokens of a batch; WMATIC itself is one to one. -/
def hubPathMaticRatesBatch (arena : StateArena) (graph : RoutingGraph) (tokens : List TokenIndex)
    (params : HubPathRateParams) (tokenDecimals : Option DecimalMap)
    (poolMetas : Option (List PoolMeta)) : Run TokenRates :=
  if params.enabled = false then some fun _ => none
  else
    match arena.inner.addressToToken wmaticAddress with
    | none => some fun _ => none
    | some wmatic => do
        let out : TokenRates := Function.update (fun _ => none) wmatic (some one18)
        let need := tokens.filter (· ≠ wmatic)
        if need = [] then some out
        else do
          let rev ← buildReverseHops arena graph poolMetas
          let (parent, alt) := reverseBfsParents rev wmatic params.maxHops
          need.foldlM (priceToken arena tokenDecimals parent alt rev.length wmatic) out

/-! ## Paths

A route of the reverse adjacency takes its hops between tokens that have a slot. -/

/-- Each edge leads from the token of its hop to the token of its row. -/
def HopsMatch (rev : List (List RevHop)) : Prop :=
  ∀ dst, ∀ hop ∈ hopsInto rev dst, hop.2.tokenIn = hop.1 ∧ hop.2.tokenOut = dst

/-- The hops from a token to WMATIC. -/
abbrev HopRoute (rev : List (List RevHop)) (token : TokenIndex) (hops : List Edge)
    (wmatic : TokenIndex) : Prop :=
  BreadthFirst.Route (Finset.range rev.length) (hopsInto rev) token hops wmatic

section Correct

variable {rev : List (List RevHop)} {wmatic token : TokenIndex} {maxHops slots : ℕ}
  {parent alt : TokenIndex → Option RevHop} {hops path : List Edge}

/-- Hops whose edges lead from their token to the token of their row make a walk. -/
lemma HopRoute.walk (hrev : HopsMatch rev) (h : HopRoute rev token hops wmatic) :
    Walk token hops wmatic := by
  induction h with
  | nil => exact .nil
  | cons hmem _ _ ih =>
      rcases hrev _ _ hmem with ⟨hin, hout⟩
      exact walk_cons.mpr ⟨hin.symm, hout ▸ ih⟩

/-- Nothing leads to a token without a slot. -/
lemma hopRoute_of_length_le (hslot : rev.length ≤ wmatic) :
    HopRoute rev token hops wmatic ↔ token = wmatic ∧ hops = [] := by
  constructor
  · intro h
    induction h with
    | nil => exact ⟨rfl, rfl⟩
    | cons hmem hfrom tail ih =>
        rcases ih hslot with ⟨rfl, rfl⟩
        rw [hopsInto, List.getElem?_eq_none hslot] at hmem
        cases hmem
  · rintro ⟨rfl, rfl⟩
    exact .nil

lemma reconstructPath_eq_follow (hslots : 0 < slots) :
    reconstructPath parent slots token wmatic = BreadthFirst.follow parent wmatic slots token [] := by
  cases slots with
  | zero => omega
  | succ n =>
      simp only [reconstructPath, reconstructPathWithFirst, BreadthFirst.follow, Option.none_or,
        List.nil_append]
      split_ifs
      · rfl
      · cases parent token <;> rfl

lemma reconstructPathWithFirst_eq_follow {next : TokenIndex} {edge : Edge} (hslots : 0 < slots)
    (htoken : token ≠ wmatic) :
    reconstructPathWithFirst parent slots token wmatic (some (next, edge)) =
      BreadthFirst.follow parent wmatic (slots - 1) next [edge] := by
  cases slots with
  | zero => omega
  | succ n =>
      rw [reconstructPathWithFirst, if_neg htoken]
      rfl

/-- Without parents only WMATIC has a path. -/
lemma reconstructPath_noParent :
    reconstructPath (fun _ => none) slots token wmatic = some path ↔ token = wmatic ∧ path = [] := by
  by_cases htoken : token = wmatic
  · simp [reconstructPath, reconstructPathWithFirst, htoken, eq_comm]
  · cases slots <;> simp [reconstructPath, reconstructPathWithFirst, htoken]

/-- The primary path: it is there when WMATIC is in reach, and no route is shorter. -/
lemma reconstructPath_correct (rev : List (List RevHop)) (wmatic : TokenIndex) (maxHops : ℕ)
    (token : TokenIndex) :
    ((∃ path, reconstructPath (reverseBfsParents rev wmatic maxHops).1 rev.length token wmatic =
        some path) ↔ ∃ hops, HopRoute rev token hops wmatic ∧ hops.length ≤ max maxHops 1) ∧
      ∀ path, reconstructPath (reverseBfsParents rev wmatic maxHops).1 rev.length token wmatic =
          some path →
        HopRoute rev token path wmatic ∧
          ∀ hops, HopRoute rev token hops wmatic → path.length ≤ hops.length := by
  rcases Nat.lt_or_ge wmatic rev.length with hslot | hslot
  · rw [reverseBfsParents, if_neg (Nat.not_le_of_lt hslot)]
    have hmem : wmatic ∈ Finset.range rev.length := Finset.mem_range.mpr hslot
    have hcard := Finset.card_range rev.length
    have hiff := BreadthFirst.follow_search_iff otherPool (hopsInto rev) (max maxHops 1) hmem token
    have hshortest : ∀ path, BreadthFirst.follow (BreadthFirst.search (Finset.range rev.length)
        otherPool (hopsInto rev) (max maxHops 1) wmatic).parent wmatic (Finset.range rev.length).card
        token [] = some path → HopRoute rev token path wmatic ∧ path.length ≤ max maxHops 1 ∧
          ∀ hops, HopRoute rev token hops wmatic → path.length ≤ hops.length :=
      fun path hpath => BreadthFirst.follow_search_shortest otherPool (hopsInto rev) _ hmem hpath
    rw [hcard] at hiff hshortest
    dsimp only
    rw [reconstructPath_eq_follow (Nat.zero_lt_of_lt hslot)]
    refine ⟨hiff, fun path hpath => ?_⟩
    rcases hshortest path hpath with ⟨hroute, -, hshort⟩
    exact ⟨hroute, hshort⟩
  · rw [reverseBfsParents, if_pos hslot]
    dsimp only
    simp only [reconstructPath_noParent, hopRoute_of_length_le hslot]
    refine ⟨⟨?_, ?_⟩, ?_⟩
    · rintro ⟨path, htoken, -⟩
      exact ⟨[], ⟨htoken, rfl⟩, Nat.zero_le _⟩
    · rintro ⟨hops, ⟨htoken, -⟩, -⟩
      exact ⟨[], htoken, rfl⟩
    · rintro path ⟨htoken, rfl⟩
      exact ⟨⟨htoken, rfl⟩, fun _ _ => Nat.zero_le _⟩

/-- The alternate path: as long as the primary one, which is there, and through another first pool. -/
lemma alternatePath_correct
    (h : alternatePath (reverseBfsParents rev wmatic maxHops).1 (reverseBfsParents rev wmatic maxHops).2
      rev.length wmatic token = some path) :
    HopRoute rev token path wmatic ∧ ∃ primary,
      reconstructPath (reverseBfsParents rev wmatic maxHops).1 rev.length token wmatic = some primary ∧
        path.length = primary.length ∧
        path.head?.map Edge.poolIndex ≠ primary.head?.map Edge.poolIndex := by
  rcases Nat.lt_or_ge wmatic rev.length with hslot | hslot
  · rw [reverseBfsParents, if_neg (Nat.not_le_of_lt hslot)] at h ⊢
    have hmem : wmatic ∈ Finset.range rev.length := Finset.mem_range.mpr hslot
    dsimp only at h ⊢
    rw [alternatePath, Option.filter_eq_some_iff, Option.bind_eq_some_iff] at h
    rcases h with ⟨⟨⟨next, edge⟩, halt, hpath⟩, -⟩
    rcases BreadthFirst.alt_search otherPool (hopsInto rev) (max maxHops 1) hmem halt with
      ⟨hne, first, rest, tail, hprimary, hrival, hfollow, hroute, hlen⟩
    rw [Finset.card_range] at hprimary hfollow
    rw [reconstructPathWithFirst_eq_follow (Nat.zero_lt_of_lt hslot) hne, hfollow,
      Option.some.injEq] at hpath
    rw [← hpath, reconstructPath_eq_follow (Nat.zero_lt_of_lt hslot)]
    refine ⟨hroute, first :: rest, hprimary, ?_, ?_⟩
    · rw [List.length_cons, List.length_cons, hlen]
    · have hpool : first.poolIndex ≠ edge.poolIndex := of_decide_eq_true hrival
      simpa using hpool.symm
  · rw [reverseBfsParents, if_pos hslot] at h
    cases h

end Correct

/-! ## The reverse adjacency of a graph -/

section BuildCorrect

variable {arena : StateArena} {graph : RoutingGraph} {poolMetas : Option (List PoolMeta)}
  {rev rev' : List (List RevHop)} {src dst : TokenIndex} {pending : PendingHubSwap} {ge : GraphEdge}

lemma hopsMatch_pushHop {hop : RevHop} (h : HopsMatch rev) (hin : hop.2.tokenIn = hop.1)
    (hout : hop.2.tokenOut = dst) : HopsMatch (pushHop rev dst hop) := by
  intro token other hmem
  rw [hopsInto, pushHop, List.getElem?_modify] at hmem
  cases hrow : rev[token]? with
  | none => simp [hrow] at hmem
  | some row =>
      have hrowmem : ∀ hop ∈ row, hop.2.tokenIn = hop.1 ∧ hop.2.tokenOut = token := by
        intro hop hhop
        exact h token hop (by rw [hopsInto, hrow]; exact hhop)
      rw [hrow, Option.map_eq_map, Option.map_some, Option.getD_some] at hmem
      split_ifs at hmem with hdst
      · rcases List.mem_append.mp hmem with hold | hnew
        · exact hrowmem other hold
        · rw [List.mem_singleton.mp hnew]
          exact ⟨hin, hout.trans hdst⟩
      · exact hrowmem other hmem

lemma hopsMatch_pairSwapHop {outLeg : ℕ} (h : HopsMatch rev)
    (hrun : pairSwapHop arena graph src pending rev dst outLeg = some (some rev'))
    (hin : pending.tokenIn = src) : HopsMatch rev' := by
  rw [pairSwapHop] at hrun
  split_ifs at hrun
  · cases hrun
  rcases Option.map_eq_some_iff.mp hrun with ⟨swap, hswap, hpush⟩
  rcases Option.map_eq_some_iff.mp hpush with ⟨⟨edge, weight, ratio⟩, rfl, rfl⟩
  rcases resolveLazySwapEdge_eq_some hswap with ⟨-, htin, htout⟩
  exact hopsMatch_pushHop h (htin.trans hin) htout

lemma hopsMatch_enterHops (h : HopsMatch rev)
    (hrun : enterHops arena graph poolMetas src ge rev = some rev') : HopsMatch rev' := by
  rw [enterHops] at hrun
  split at hrun
  · cases hrun
    exact h
  · rename_i hubAdj _
    dsimp only at hrun
    rcases Option.bind_eq_some_iff.mp hrun with ⟨⟨mid, paired⟩, hexits, hrest⟩
    have hmid : HopsMatch mid := by
      refine foldlM_inv (fun found => HopsMatch found.1) hubAdj (rev, false) (mid, paired) ?_ h hexits
      intro exit _ found found' hfound hstep
      rw [pairExit] at hstep
      split_ifs at hstep
      · cases hstep
        exact hfound
      · cases hstep
        exact hfound
      · rcases Option.map_eq_some_iff.mp hstep with ⟨pushed, hpair, hnext⟩
        cases pushed with
        | none => exact hnext ▸ hfound
        | some pushed =>
            have hpushed : HopsMatch pushed := hopsMatch_pairSwapHop hfound hpair rfl
            exact hnext ▸ hpushed
    dsimp only at hrest
    split_ifs at hrest
    · cases hrest
      exact hmid
    split at hrest
    · rename_i pool state _ _
      refine foldlM_inv HopsMatch (fundedTokenIndices state pool) mid rev' ?_ hmid hrest
      intro leg _ before after hbefore hstep
      rw [fundedHop] at hstep
      split_ifs at hstep
      · cases hstep
        exact hbefore
      split at hstep
      · cases hstep
        exact hbefore
      · rcases Option.map_eq_some_iff.mp hstep with ⟨pushed, hpair, hnext⟩
        cases pushed with
        | none => exact hnext ▸ hbefore
        | some pushed =>
            have hpushed : HopsMatch pushed := hopsMatch_pairSwapHop hbefore hpair rfl
            exact hnext ▸ hpushed
    · cases hrest
      exact hmid

/-- Over a graph whose edges leave their row, the hops of the reverse adjacency lead where it says. -/
theorem hopsMatch_buildReverseHops (hgraph : EdgesWellFormed graph.tokenCount graph.edgesAt)
    (h : buildReverseHops arena graph poolMetas = some rev) : HopsMatch rev := by
  have hstart : HopsMatch (List.replicate graph.tokenCount []) := by
    intro token hop hmem
    rw [hopsInto, List.getElem?_replicate] at hmem
    split_ifs at hmem <;> cases hmem
  refine foldlM_inv HopsMatch _ _ rev ?_ hstart h
  rintro ⟨adj, node⟩ hrow before after hbefore hadj
  rw [List.mem_zipIdx_iff_getElem?, List.getElem?_take] at hrow
  refine foldlM_inv HopsMatch adj before after ?_ hbefore hadj
  intro ge hge mid next hmid hstep
  rw [edgeHops] at hstep
  split at hstep
  · split_ifs at hstep
    · cases hstep
      split_ifs at hrow with hnode
      have hmem : ge ∈ graph.edgesAt node := by
        rw [RoutingGraph.edgesAt, hrow]
        exact hge
      exact hopsMatch_pushHop hmid (hgraph.token_in node hnode ge hmem) rfl
    · cases hstep
      exact hmid
  · exact hopsMatch_enterHops hmid hstep
  · cases hstep
    exact hmid

end BuildCorrect

/-! ## The batch -/

section Batch

variable {arena : StateArena} {tokenDecimals : Option DecimalMap}
  {parent alt : TokenIndex → Option RevHop} {slots : ℕ} {wmatic token : TokenIndex}
  {out out' : TokenRates} {need : List TokenIndex}

/-- A token that has a rate keeps it, one that is not asked for stays without, and one that is asked for
gets what `hub_rate` says. -/
lemma foldlM_priceToken
    (h : need.foldlM (priceToken arena tokenDecimals parent alt slots wmatic) out = some out') :
    (∀ token, (out token).isSome = true ∨ token ∉ need → out' token = out token) ∧
      ∀ token ∈ need, out token = none →
        hubRate arena tokenDecimals parent alt slots wmatic token = some (out' token) := by
  induction need generalizing out with
  | nil =>
      cases h
      exact ⟨fun _ _ => rfl, fun _ hmem => absurd hmem List.not_mem_nil⟩
  | cons first need ih =>
      rw [List.foldlM_cons, Option.bind_eq_bind] at h
      rcases Option.bind_eq_some_iff.mp h with ⟨mid, hfirst, hrest⟩
      rcases ih hrest with ⟨hkeep, hprice⟩
      rw [priceToken] at hfirst
      split_ifs at hfirst with hsome
      · cases hfirst
        refine ⟨?_, ?_⟩
        · rintro token (hout | hnot)
          · exact hkeep token (Or.inl hout)
          · exact hkeep token (Or.inr fun hmem => hnot (List.mem_cons_of_mem _ hmem))
        · rintro token (_ | ⟨_, hmem⟩) hnone
          · rw [hnone] at hsome
            cases hsome
          · exact hprice token hmem hnone
      · rw [Option.not_isSome_iff_eq_none] at hsome
        rcases Option.map_eq_some_iff.mp hfirst with ⟨rate, hrate, hmid⟩
        have hother : ∀ token ≠ first, mid token = out token := by
          intro token hne
          rw [← hmid]
          cases rate with
          | none => rfl
          | some rate => exact Function.update_of_ne hne _ _
        have hself : mid first = rate := by
          rw [← hmid]
          cases rate with
          | none => exact hsome
          | some rate => exact Function.update_self _ _ _
        refine ⟨?_, ?_⟩
        · rintro token (hout | hnot)
          · have hne : token ≠ first := by
              rintro rfl
              rw [hsome] at hout
              cases hout
            rw [← hother token hne] at hout ⊢
            exact hkeep token (Or.inl hout)
          · rw [List.mem_cons, not_or] at hnot
            rw [← hother token hnot.1]
            exact hkeep token (Or.inr hnot.2)
        · intro token hmem hnone
          by_cases hne : token = first
          · subst hne
            rw [hrate, ← hself]
            by_cases hagain : token ∈ need ∧ mid token = none
            · rw [← hprice token hagain.1 hagain.2, hrate, hself]
            · rw [hkeep token]
              rw [← Option.not_isSome_iff_eq_none] at hagain
              tauto
          · exact hprice token ((List.mem_cons.mp hmem).resolve_left hne) ((hother token hne).trans hnone)

/-- A token with a path, which is not empty, or without any. -/
lemma hubRate_eq (hpath : reconstructPath parent slots token wmatic ≠ some [])
    (halt : reconstructPath parent slots token wmatic = none →
      alternatePath parent alt slots wmatic token = none) :
    hubRate arena tokenDecimals parent alt slots wmatic token =
      (pathRate arena tokenDecimals token (reconstructPath parent slots token wmatic)).bind fun primary =>
        (pathRate arena tokenDecimals token (alternatePath parent alt slots wmatic token)).bind
          fun altRate => some (publishedRate primary altRate) := by
  rw [hubRate]
  split
  · rename_i hnone
    rw [hnone, halt hnone]
    rfl
  · rename_i hempty
    exact absurd hempty hpath
  · rename_i path _ hsome
    rw [hsome]
    rfl

end Batch

/-- For any reverse adjacency, WMATIC index and hop limit: a token has a path exactly when WMATIC is in
reach, the path is a shortest route there, and an alternate path is a route of the same length through
another first pool.  A batch that returns gives each token the smaller rate of two that agree, the one
there is, and none of two that do not. -/
theorem hub_path_pricing (rev : List (List RevHop)) (wmatic : TokenIndex) (maxHops : ℕ) :
    let parent := (reverseBfsParents rev wmatic maxHops).1
    let alt := (reverseBfsParents rev wmatic maxHops).2
    (∀ token, (∃ path, reconstructPath parent rev.length token wmatic = some path) ↔
        ∃ hops, HopRoute rev token hops wmatic ∧ hops.length ≤ max maxHops 1) ∧
      (∀ token path, reconstructPath parent rev.length token wmatic = some path →
        HopRoute rev token path wmatic ∧
          ∀ hops, HopRoute rev token hops wmatic → path.length ≤ hops.length) ∧
      (∀ token path, alternatePath parent alt rev.length wmatic token = some path →
        HopRoute rev token path wmatic ∧ ∃ primary,
          reconstructPath parent rev.length token wmatic = some primary ∧
            path.length = primary.length ∧
            path.head?.map Edge.poolIndex ≠ primary.head?.map Edge.poolIndex) ∧
      (HopsMatch rev → ∀ token hops, HopRoute rev token hops wmatic → Walk token hops wmatic) ∧
      ∀ arena graph tokens tokenDecimals poolMetas out,
        hubPathMaticRatesBatch arena graph tokens ⟨true, maxHops⟩ tokenDecimals poolMetas = some out →
        arena.inner.addressToToken wmaticAddress = some wmatic →
        buildReverseHops arena graph poolMetas = some rev →
        ∀ token ∈ tokens, token ≠ wmatic → ∃ primary altRate,
          pathRate arena tokenDecimals token (reconstructPath parent rev.length token wmatic) =
              some primary ∧
            pathRate arena tokenDecimals token (alternatePath parent alt rev.length wmatic token) =
              some altRate ∧
            (∀ a b, primary = some a → altRate = some b →
              ratesDivergeBps a b ≤ hubDualPathMaxDivergeBps → out token = some (min a b)) ∧
            (∀ a b, primary = some a → altRate = some b →
              hubDualPathMaxDivergeBps < ratesDivergeBps a b → out token = none) ∧
            (∀ a, primary = some a → altRate = none → out token = some a) ∧
            (∀ b, primary = none → altRate = some b → out token = some b) ∧
            (primary = none → altRate = none → out token = none) := by
  refine ⟨fun token => (reconstructPath_correct rev wmatic maxHops token).1,
    fun token => (reconstructPath_correct rev wmatic maxHops token).2,
    fun token path => alternatePath_correct, fun hrev token hops => HopRoute.walk hrev, ?_⟩
  intro arena graph tokens tokenDecimals poolMetas out hbatch hwmatic hrev token htoken hne
  have hneed : token ∈ tokens.filter (· ≠ wmatic) :=
    List.mem_filter.mpr ⟨htoken, by simpa using hne⟩
  rw [hubPathMaticRatesBatch, if_neg (by simp), hwmatic] at hbatch
  dsimp only at hbatch
  rw [if_neg (List.ne_nil_of_mem hneed), hrev] at hbatch
  have hrate := (foldlM_priceToken hbatch).2 token hneed (Function.update_of_ne hne _ _)
  rw [hubRate_eq] at hrate
  · rcases Option.bind_eq_some_iff.mp hrate with ⟨primary, hprimary, hrate⟩
    rcases Option.bind_eq_some_iff.mp hrate with ⟨altRate, haltRate, hrate⟩
    rw [Option.some.injEq] at hrate
    refine ⟨primary, altRate, hprimary, haltRate, ?_, ?_, ?_, ?_, ?_⟩
    · rintro a b rfl rfl hle
      rw [← hrate, publishedRate, if_neg (Nat.not_lt_of_le hle)]
    · rintro a b rfl rfl hlt
      rw [← hrate, publishedRate, if_pos hlt]
    · rintro a rfl rfl
      rw [← hrate, publishedRate]
    · rintro b rfl rfl
      rw [← hrate, publishedRate]
    · rintro rfl rfl
      rw [← hrate, publishedRate]
  · intro hempty
    have hroute := ((reconstructPath_correct rev wmatic maxHops token).2 [] hempty).1
    cases hroute
    exact hne rfl
  · intro hnone
    rw [Option.eq_none_iff_forall_ne_some]
    intro path hpath
    rcases (alternatePath_correct hpath).2 with ⟨primary, hprimary, -⟩
    rw [hnone] at hprimary
    cases hprimary

/-! A pair of a token with WMATIC. -/

def maticArena : StateArena :=
  poolArena [wmaticAddress, 2] [9] [pairPool 1000000000000000000000 1000000000000000000000]

def maticGraph : RoutingGraph where
  adjacency := [[], [⟨pairHop 0 1 0, .direct, 0, 0, one18⟩]]
  tokenCount := 2
  virtualHubs := []
  poolSlots := 1
  coverage := none

def maticRev : List (List RevHop) := [[(1, pairHop 0 1 0)], []]

/-- The batch prices the token by its only path. -/
theorem hub_path_pricing_pair :
    Walk 1 [pairHop 0 1 0] 0 ∧
      ∃ out, hubPathMaticRatesBatch maticArena maticGraph [1] ⟨true, 3⟩ none none = some out ∧
        out 1 = some 996999999005000000#256 := by
  have hrev : buildReverseHops maticArena maticGraph none = some maticRev := by decide +kernel
  have hmatch := hopsMatch_buildReverseHops ⟨by decide, by decide, by decide⟩ hrev
  obtain ⟨-, hroute, -, hwalk, hbatch⟩ := hub_path_pricing maticRev 0 3
  have hpath : reconstructPath (reverseBfsParents maticRev 0 3).1 2 1 0 = some [pairHop 0 1 0] := by
    decide +kernel
  refine ⟨hwalk hmatch 1 _ (hroute 1 _ hpath).1, ?_⟩
  have hruns : (hubPathMaticRatesBatch maticArena maticGraph [1] ⟨true, 3⟩ none none).isSome := by
    decide +kernel
  obtain ⟨out, hout⟩ := Option.isSome_iff_exists.mp hruns
  obtain ⟨primary, altRate, hprimary, halt, -, -, hone, -⟩ :=
    hbatch _ _ _ _ _ out hout rfl hrev 1 List.mem_cons_self (by decide)
  have hrate : pathRate maticArena none 1 (reconstructPath (reverseBfsParents maticRev 0 3).1 2 1 0) =
      some (some 996999999005000000#256) := by decide +kernel
  have hother : pathRate maticArena none 1 (alternatePath (reverseBfsParents maticRev 0 3).1
      (reverseBfsParents maticRev 0 3).2 2 0 1) = some none := by decide +kernel
  exact ⟨out, hout, hone _ (Option.some.inj (hprimary.symm.trans hrate))
    (Option.some.inj (halt.symm.trans hother))⟩

end PolygonArb

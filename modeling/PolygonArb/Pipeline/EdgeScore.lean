import PolygonArb.Pipeline.Graph

/-!
# Rescoring an edge

`rescore_graph_edge` of `pipeline/graph.rs`: an edge is healed against the live pool state (protocol
tag, fee, direction) and priced.  What it reads of the edge and of the arena is said once
(`rescoreGraphEdge_congr`, `rescoreGraphEdge_kill`), and a second rescore changes nothing
(`rescoreGraphEdge_again`).
-/

namespace PolygonArb

open Word

/-! ## The fee of an edge -/

/-- A fee over its denominator in basis points; none when it is unset or takes everything. -/
def feeBpsOf (fee denominator : U256) : Option ℕ :=
  if fee = 0 ∨ denominator ≤ fee then none
  else some (min (fee * 10000#256 / denominator) 9999#256).toNat

/-- The stored fee of a V2 pool is the part that is kept. -/
def v2FeeBpsFromPool (state : V2PoolState) : Option ℕ :=
  if state.fee = 0 ∨ state.feeDenominator = 0 ∨ state.feeDenominator ≤ state.fee then none
  else
    let bps := (min ((state.feeDenominator - state.fee) * 10000#256 / state.feeDenominator) 9999#256).toNat
    if 0 < bps then some bps else none

def curveFeeBpsFromPool (fee : U256) : Option ℕ := feeBpsOf fee curveFeeDenominator

def balancerFeeBpsFromPool (fee : U256) : Option ℕ := feeBpsOf fee one18

def dodoFeeBpsFromPool (lpFeeRate mtFeeRate : U256) : Option ℕ :=
  feeBpsOf (saturatingAdd lpFeeRate mtFeeRate) one18

def woofiFeeRateToBps (feeRate : U256) : ℕ :=
  if woofiFeeDenominator ≤ feeRate then 9999
  else (min (feeRate * 10000#256 / woofiFeeDenominator) 9999#256).toNat

/-- A swap between two base tokens pays the higher of the two rates. -/
def woofiFeeBpsFromEdge (state : WoofiPoolState) (tokenInIdx tokenOutIdx : ℕ) : Option ℕ :=
  let quoteIdx := state.baseStates.length
  let rate := fun idx => (state.baseStates[idx]?).map fun base => woofiFeeRateToBps base.feeRate
  if tokenInIdx = tokenOutIdx ∨ quoteIdx < tokenInIdx ∨ quoteIdx < tokenOutIdx then none
  else do
    let total ←
      if tokenOutIdx = quoteIdx then rate tokenInIdx
      else if tokenInIdx = quoteIdx then rate tokenOutIdx
      else do
        let sell ← rate tokenInIdx
        let buy ← rate tokenOutIdx
        some (max sell buy)
    some (min total 9999)

/-- The low 32 bits of a fee in hundredths of a basis point. -/
def clFeePips (state : ConcentratedLiquidityPoolState) : ℕ := state.fee.toNat % 2 ^ 32

/-- The fee the live state has for an edge.  A V3 fee of zero is an unset one, a V4 fee of zero is not. -/
def liveFeeBps (edge : Edge) : PoolState → Option ℕ
  | .v2 s => v2FeeBpsFromPool s
  | .v3 s =>
      if 1 ≤ clFeePips s ∧ clFeePips s < 0x800000 then some (min (clFeePips s / 100) 9999) else none
  | .v4 s => if clFeePips s < 0x800000 then some (min (clFeePips s / 100) 9999) else none
  | .curve s => curveFeeBpsFromPool s.fee
  | .balancer s => balancerFeeBpsFromPool s.fee
  | .dodo s => dodoFeeBpsFromPool s.lpFeeRate s.mtFeeRate
  | .woofi s => woofiFeeBpsFromEdge s edge.tokenInIdx edge.tokenOutIdx
  | .invalid => none

def syncEdgeFeeBpsFromState (edge : Edge) (state : PoolState) : Edge :=
  match liveFeeBps edge state with
  | some bps => { edge with feeBps := bps }
  | none => edge

/-- A Uniswap pool swaps from the lower address; where an address is unknown the flag stays. -/
def liveZeroForOne (arena : StateArena) (edge : Edge) : Bool :=
  match edge.protocol with
  | .uniswapV2 | .uniswapV3 | .uniswapV4 =>
      (clZeroForOneFromAddresses arena edge.tokenIn edge.tokenOut).getD edge.zeroForOne
  | _ => edge.zeroForOne

def applyClZeroForOne (arena : StateArena) (edge : Edge) : Edge :=
  { edge with zeroForOne := liveZeroForOne arena edge }

/-! ## Rescoring -/

def deadEdgeLogWeight : Float := 15.0

/-- A dead edge keeps its place. -/
def kill (ge : GraphEdge) : GraphEdge := { ge with logWeight := deadEdgeLogWeight, ratio := 0 }

/-- The protocol tag the state calls for, if the edge can have it. -/
def healProtocol (edge : Edge) (state : PoolState) : Option Edge :=
  if protocolMatchesPoolState edge.protocol state then some edge
  else
    let corrected := protocolFromPoolState state edge.protocol
    if corrected = edge.protocol ∨ protocolMatchesPoolState corrected state = false then none
    else some { edge with protocol := corrected }

/-- Heal the edge against the live state. -/
def healEdge (arena : StateArena) (edge : Edge) (state : PoolState) : Option Edge :=
  (healProtocol edge state).map fun edge =>
    applyClZeroForOne arena (syncEdgeFeeBpsFromState edge state)

def weighted (ge : GraphEdge) (ratio : U256) : GraphEdge :=
  if ratio = 0 then kill ge
  else
    let weight := edgeLogWeightFromRatio ratio
    { ge with
      logWeight := if weight.isFinite then weight else computeEdgeLogWeight ge.edge.feeBps
      ratio := ratio }

/-- The healed edge with its ratio, which is zero for a swap that cannot be made. -/
def priceEdge (arena : StateArena) (edge : Edge) : Run (Edge × U256) :=
  match arena.poolState edge.poolIndex with
  | none => some (edge, 0)
  | some state =>
      match healEdge arena edge state with
      | none => some (edge, 0)
      | some healed =>
          if state.hopPairRoutable healed.tokenInIdx healed.tokenOutIdx then
            (computeEdgeRatio arena healed).map fun ratio => (healed, ratio)
          else some (healed, 0)

/-- The legs of a hub are not priced: the swap through it is, when it is walked. -/
def rescoreGraphEdge (arena : StateArena) (ge : GraphEdge) : Run GraphEdge :=
  match ge.phase with
  | .enterPool | .exitPool => some { ge with logWeight := 0.0, ratio := one18 }
  | .direct =>
      (priceEdge arena ge.edge).map fun priced => weighted { ge with edge := priced.1 } priced.2

/-! ## What a rescore keeps -/

/-- Where an edge lies in the graph: what rescoring leaves alone. -/
structure Place where
  phase : GraphHopPhase
  target : ℕ
  pool : PoolIndex
  tokenIn : TokenIndex
  tokenOut : TokenIndex
  deriving DecidableEq

def GraphEdge.place (ge : GraphEdge) : Place where
  phase := ge.phase
  target := ge.targetNode
  pool := ge.edge.poolIndex
  tokenIn := ge.edge.tokenIn
  tokenOut := ge.edge.tokenOut

section Heal

variable {arena : StateArena} {edge edge' : Edge} {state : PoolState}

/-- The fee of an edge is read off its legs. -/
lemma liveFeeBps_congr (hin : edge'.tokenInIdx = edge.tokenInIdx)
    (hout : edge'.tokenOutIdx = edge.tokenOutIdx) : liveFeeBps edge' state = liveFeeBps edge state := by
  cases state <;> simp only [liveFeeBps, hin, hout]

lemma syncEdgeFeeBps_eq (edge : Edge) (state : PoolState) :
    syncEdgeFeeBpsFromState edge state =
      { edge with feeBps := (liveFeeBps edge state).getD edge.feeBps } := by
  rw [syncEdgeFeeBpsFromState]
  cases liveFeeBps edge state <;> rfl

lemma liveZeroForOne_again (arena : StateArena) (edge : Edge) (feeBps : ℕ) :
    liveZeroForOne arena { edge with feeBps := feeBps, zeroForOne := liveZeroForOne arena edge } =
      liveZeroForOne arena edge := by
  have hgetD : ∀ (o : Option Bool) (b : Bool), o.getD (o.getD b) = o.getD b := by
    intro o b
    cases o <;> rfl
  simp only [liveZeroForOne]
  cases edge.protocol <;> simp only [hgetD]

lemma healProtocol_spec (h : healProtocol edge state = some edge') :
    ∃ protocol, edge' = { edge with protocol := protocol } ∧
      protocolMatchesPoolState protocol state = true := by
  simp only [healProtocol] at h
  split_ifs at h with hmatch hcorrected
  · cases h
    exact ⟨edge.protocol, rfl, hmatch⟩
  · cases h
    exact ⟨_, rfl, by simpa using (not_or.mp hcorrected).2⟩

lemma healEdge_spec (h : healEdge arena edge state = some edge') :
    edge'.poolIndex = edge.poolIndex ∧ edge'.tokenIn = edge.tokenIn ∧
      edge'.tokenOut = edge.tokenOut := by
  rcases Option.map_eq_some_iff.mp h with ⟨healed, hhealed, rfl⟩
  rcases healProtocol_spec hhealed with ⟨protocol, rfl, -⟩
  rw [syncEdgeFeeBps_eq]
  exact ⟨rfl, rfl, rfl⟩

/-- A healed edge is healthy. -/
lemma healEdge_again (h : healEdge arena edge state = some edge') :
    healEdge arena edge' state = some edge' := by
  rcases Option.map_eq_some_iff.mp h with ⟨healed, hhealed, rfl⟩
  have hmatch : protocolMatchesPoolState healed.protocol state = true := by
    rcases healProtocol_spec hhealed with ⟨protocol, rfl, hprotocol⟩
    exact hprotocol
  set feeBps := (liveFeeBps healed state).getD healed.feeBps with hfeeBps
  set zfo := liveZeroForOne arena { healed with feeBps := feeBps } with hzfo
  have hedge : applyClZeroForOne arena (syncEdgeFeeBpsFromState healed state) =
      { healed with feeBps := feeBps, zeroForOne := zfo } := by
    rw [syncEdgeFeeBps_eq]
    rfl
  have hfee : (liveFeeBps { healed with feeBps := feeBps, zeroForOne := zfo } state).getD feeBps =
      feeBps := by
    have hlive : liveFeeBps { healed with feeBps := feeBps, zeroForOne := zfo } state =
        liveFeeBps healed state := liveFeeBps_congr rfl rfl
    rw [hlive, hfeeBps]
    cases liveFeeBps healed state <;> rfl
  have hagain : liveZeroForOne arena { healed with feeBps := feeBps, zeroForOne := zfo } = zfo :=
    liveZeroForOne_again arena { healed with feeBps := feeBps } feeBps
  rw [hedge, healEdge, healProtocol, if_pos hmatch, Option.map_some, syncEdgeFeeBps_eq,
    applyClZeroForOne]
  simp only [hfee, hagain]

end Heal

section Price

variable {arena arena' : StateArena} {edge edge' : Edge} {ratio : U256}

lemma priceEdge_spec (h : priceEdge arena edge = some (edge', ratio)) :
    edge'.poolIndex = edge.poolIndex ∧ edge'.tokenIn = edge.tokenIn ∧
      edge'.tokenOut = edge.tokenOut := by
  rw [priceEdge] at h
  split at h
  · cases h
    exact ⟨rfl, rfl, rfl⟩
  · split at h
    · cases h
      exact ⟨rfl, rfl, rfl⟩
    · rename_i healed hhealed
      split_ifs at h
      · rcases Option.map_eq_some_iff.mp h with ⟨_, -, heq⟩
        cases heq
        exact healEdge_spec hhealed
      · cases h
        exact healEdge_spec hhealed

/-- A priced edge has its price. -/
lemma priceEdge_again (h : priceEdge arena edge = some (edge', ratio)) :
    priceEdge arena edge' = some (edge', ratio) := by
  have hpool := (priceEdge_spec h).1
  have hprice := h
  rw [priceEdge] at h
  split at h
  · cases h
    exact hprice
  · rename_i state hstate
    split at h
    · cases h
      exact hprice
    · rename_i healed hhealed
      rw [priceEdge, hpool, hstate]
      split_ifs at h with hroutable
      · rcases Option.map_eq_some_iff.mp h with ⟨_, hratio, heq⟩
        cases heq
        simp only [healEdge_again hhealed, hroutable, if_true, hratio, Option.map_some]
      · cases h
        simp only [healEdge_again hhealed]
        rw [if_neg hroutable]

/-- An arena is read at the pool of the edge and in its token tables. -/
lemma priceEdge_congr (hstate : arena'.poolState edge.poolIndex = arena.poolState edge.poolIndex)
    (htokens : ∀ t, arena'.tokenAddress t = arena.tokenAddress t)
    (hdecimals : ∀ t, arena'.tokenDecimals t = arena.tokenDecimals t) :
    priceEdge arena' edge = priceEdge arena edge := by
  have hflag : ∀ edge, applyClZeroForOne arena' edge = applyClZeroForOne arena edge := by
    intro edge
    simp only [applyClZeroForOne, liveZeroForOne, clZeroForOneFromAddresses, htokens]
  have hheal : ∀ edge state, healEdge arena' edge state = healEdge arena edge state := by
    intro edge state
    simp only [healEdge, hflag]
  rw [priceEdge, priceEdge, hstate]
  cases hpool : arena.poolState edge.poolIndex with
  | none => rfl
  | some state =>
      simp only [hheal]
      cases hedge : healEdge arena edge state with
      | none => rfl
      | some healed =>
          have hratio : computeEdgeRatio arena' healed = computeEdgeRatio arena healed := by
            simp only [computeEdgeRatio, (healEdge_spec hedge).1, hstate, StateArena.spotProbeForToken,
              hdecimals]
          simp only [hratio]

end Price

section Rescore

variable {arena arena' : StateArena} {ge ge' : GraphEdge}

@[simp] lemma kill_phase (ge : GraphEdge) : (kill ge).phase = ge.phase := rfl

@[simp] lemma kill_ratio (ge : GraphEdge) : (kill ge).ratio = 0 := rfl

@[simp] lemma place_kill (ge : GraphEdge) : (kill ge).place = ge.place := rfl

@[simp] lemma place_weighted (ge : GraphEdge) (ratio : U256) : (weighted ge ratio).place = ge.place := by
  rw [weighted]
  split_ifs <;> rfl

lemma weighted_edge (ge : GraphEdge) (ratio : U256) : (weighted ge ratio).edge = ge.edge := by
  rw [weighted]
  split_ifs <;> rfl

lemma weighted_weighted (ge : GraphEdge) (ratio : U256) :
    weighted (weighted ge ratio) ratio = weighted ge ratio := by
  by_cases hzero : ratio = 0
  · rw [weighted, if_pos hzero, weighted, if_pos hzero]
    rfl
  · have honce : ∀ ge, weighted ge ratio = { ge with
        logWeight :=
          if (edgeLogWeightFromRatio ratio).isFinite then edgeLogWeightFromRatio ratio
          else computeEdgeLogWeight ge.edge.feeBps
        ratio := ratio } := by
      intro ge
      rw [weighted, if_neg hzero]
    rw [honce, honce]

lemma rescoreGraphEdge_direct (h : ge.phase = .direct) :
    rescoreGraphEdge arena ge =
      (priceEdge arena ge.edge).map fun priced => weighted { ge with edge := priced.1 } priced.2 := by
  rw [rescoreGraphEdge, h]

lemma rescoreGraphEdge_hub (h : ge.phase ≠ .direct) :
    rescoreGraphEdge arena ge = some { ge with logWeight := 0.0, ratio := one18 } := by
  rw [rescoreGraphEdge]
  cases hphase : ge.phase with
  | direct => exact absurd hphase h
  | enterPool => rfl
  | exitPool => rfl

lemma rescoreGraphEdge_place (h : rescoreGraphEdge arena ge = some ge') : ge'.place = ge.place := by
  by_cases hphase : ge.phase = .direct
  · rw [rescoreGraphEdge_direct hphase] at h
    rcases Option.map_eq_some_iff.mp h with ⟨⟨edge, ratio⟩, hprice, rfl⟩
    rcases priceEdge_spec hprice with ⟨hpool, hin, hout⟩
    rw [place_weighted]
    simp only [GraphEdge.place, hpool, hin, hout]
  · rw [rescoreGraphEdge_hub hphase] at h
    cases h
    rfl

/-- Neither the weight nor the ratio an edge had is read. -/
lemma rescoreGraphEdge_kill (arena : StateArena) (ge : GraphEdge) :
    rescoreGraphEdge arena (kill ge) = rescoreGraphEdge arena ge := by
  cases ge with
  | mk edge phase target weight ratio => cases phase <;> rfl

/-- A second rescore changes nothing. -/
lemma rescoreGraphEdge_again (h : rescoreGraphEdge arena ge = some ge') :
    rescoreGraphEdge arena ge' = some ge' := by
  have hphase' : ge'.phase = ge.phase := congrArg Place.phase (rescoreGraphEdge_place h)
  by_cases hphase : ge.phase = .direct
  · rw [rescoreGraphEdge_direct hphase] at h
    rcases Option.map_eq_some_iff.mp h with ⟨⟨edge, ratio⟩, hprice, rfl⟩
    rw [rescoreGraphEdge_direct (hphase'.trans hphase), weighted_edge, priceEdge_again hprice,
      Option.map_some]
    have hsame : ∀ {ge : GraphEdge}, ge.edge = edge → { ge with edge := edge } = ge := by
      rintro ge rfl
      rfl
    dsimp only
    rw [hsame (weighted_edge _ _), weighted_weighted]
  · rw [rescoreGraphEdge_hub (hphase' ▸ hphase)]
    rw [rescoreGraphEdge_hub hphase] at h
    cases h
    rfl

lemma rescoreGraphEdge_congr
    (hstate : arena'.poolState ge.edge.poolIndex = arena.poolState ge.edge.poolIndex)
    (htokens : ∀ t, arena'.tokenAddress t = arena.tokenAddress t)
    (hdecimals : ∀ t, arena'.tokenDecimals t = arena.tokenDecimals t) :
    rescoreGraphEdge arena' ge = rescoreGraphEdge arena ge := by
  rw [rescoreGraphEdge, rescoreGraphEdge, priceEdge_congr hstate htokens hdecimals]

end Rescore

end PolygonArb

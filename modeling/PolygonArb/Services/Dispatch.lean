import PolygonArb.Services.Prepare
import PolygonArb.Services.RouteEncoding

/-!
# The flash source at dispatch

`resolve_dispatch` of `candidate.rs`: which lender the built transaction calls.  A prepared route
carries the source it was priced with; dispatch turns a direct route that cannot be batched into an
Aave loan and, unless it trusts the preparation, aligns the source with the liquidity again.

`resolveDispatch_source_iff`: for which prepared routes dispatch keeps the source that was priced.
-/

namespace PolygonArb

open Word

inductive ExecutorEntrypoint
  | direct
  | balancerFlash
  | aaveFlash
  | dodoFlash
  deriving DecidableEq

def balancerBatchDirectEligible (hops : List CalldataHop) : Bool :=
  hopsAreBalancerOnly hops && decide (hops.length ≤ maxBalancerBatchHops)

def resolveExecutorEntrypoint (flashSource : FlashLoanSource) (hops : List CalldataHop) :
    ExecutorEntrypoint :=
  match flashSource with
  | .direct => if balancerBatchDirectEligible hops then .direct else .aaveFlash
  | .balancer => .balancerFlash
  | .dodo => .dodoFlash
  | .aaveV3 => .aaveFlash

/-- A direct route that cannot be one batch borrows from Aave. -/
def structuralFlashSource (flashSource : FlashLoanSource) (hops : List CalldataHop) :
    FlashLoanSource :=
  if flashSource = .direct ∧ balancerBatchDirectEligible hops = false then .aaveV3 else flashSource

/-- Source and entry point.  Without a liquidity the prepared source is trusted. -/
def resolveDispatch (flashSource : FlashLoanSource) (hops : List CalldataHop)
    (liquidity : Option TokenFlashLiquidity) (hasDodoPool : Bool) :
    Except String (FlashLoanSource × ExecutorEntrypoint) := do
  let source := structuralFlashSource flashSource hops
  if source = .dodo ∧ dodoExternalFlashEnabled = false then
    .error "DODO flash disabled until external (non-route) lenders are wired"
  else if source = .dodo ∧ hasDodoPool = false then
    .error "DODO flash requires a DODO pool in the route"
  else
    let dispatchSource ← match liquidity with
      | none => .ok source
      | some liquidity =>
          orReject (alignFlashSourceForDispatch source liquidity (hopsAreBalancerOnly hops) hasDodoPool
            (hops.any fun h => h.edge.protocol = .balancerV2)) "no viable flash source for route"
    .ok (dispatchSource, resolveExecutorEntrypoint dispatchSource hops)

/-- The source dispatch selects, if it selects one. -/
def dispatchSource (flashSource : FlashLoanSource) (hops : List CalldataHop)
    (liquidity : Option TokenFlashLiquidity) (hasDodoPool : Bool) : Option FlashLoanSource :=
  match resolveDispatch flashSource hops liquidity hasDodoPool with
  | .ok (source, _) => some source
  | .error _ => none

/-! ## The hops of a route -/

/-- The hops are the route's edges up to what the metadata adds. -/
def HopsOf (cycle : FoundCycle) (hops : List CalldataHop) : Prop :=
  hops.map (fun hop => hop.edge.protocol) = cycle.edges.map Edge.protocol

section Hops

variable {cycle : FoundCycle} {hops : List CalldataHop}

lemma HopsOf.length_eq (h : HopsOf cycle hops) : hops.length = cycle.edges.length := by
  simpa using congrArg List.length h

lemma HopsOf.any_balancer (h : HopsOf cycle hops) :
    (hops.any fun hop => hop.edge.protocol = .balancerV2) = routeUsesBalancerVaultSwap cycle := by
  have hany := congrArg (List.any · fun p => decide (p = .balancerV2)) h
  simpa [routeUsesBalancerVaultSwap, List.any_map, Function.comp_def] using hany

lemma HopsOf.balancerOnly (h : HopsOf cycle hops) :
    hopsAreBalancerOnly hops = routeIsBalancerOnly cycle := by
  have hall := congrArg (List.all · fun p => decide (p = .balancerV2)) h
  have hempty : hops.isEmpty = cycle.edges.isEmpty := by
    simpa using congrArg List.isEmpty h
  rw [hopsAreBalancerOnly, routeIsBalancerOnly, hempty]
  simp only [List.all_map, Function.comp_def] at hall
  rw [hall]

lemma HopsOf.balancerBatchDirectEligible (h : HopsOf cycle hops) :
    balancerBatchDirectEligible hops = balancerDirectBatchEligible cycle.edges := by
  rw [PolygonArb.balancerBatchDirectEligible, h.balancerOnly, h.length_eq]
  rfl

end Hops

/-! ## What the plan was priced with -/

section Priced

variable {input : PrepareDispatchInput} {prepared : PreparedDispatch}

/-- The assessment a prepared route carries is one of a loan from `source`: a fresh one, or one that is
reused because it charges that lender's fee. -/
def Priced (input : PrepareDispatchInput) (prepared : PreparedDispatch) (source : FlashLoanSource) :
    Prop :=
  ∃ assessment, prepared.evaluated.assessment = some assessment ∧
    (assessment = input.assess source prepared.evaluated.result ∨
      assessment.flashLoanFee =
        (flashLoanFeeAmount input.fees source prepared.amountIn).getD maxValue)

lemma priced_preparedAt (source : FlashLoanSource) (sim : RouteSimulationResult) :
    Priced input (input.preparedAt source sim) source :=
  ⟨input.assess source sim, rfl, .inl rfl⟩

lemma reuseOrReassess_cases (source : FlashLoanSource) :
    input.reuseOrReassess source = input.assess source input.evaluated.result ∨
      input.assessmentFlashFeeMatches (input.reuseOrReassess source) source = true := by
  simp only [PrepareDispatchInput.reuseOrReassess]
  split_ifs with hrisk
  · exact .inl rfl
  · cases input.existingAssessment with
    | none => exact .inl rfl
    | some existing =>
        dsimp only
        split_ifs with hreuse
        · simp only [Bool.and_eq_true] at hreuse
          exact .inr hreuse.1.2
        · exact .inl rfl

/-- Every prepared route comes from a plan that was not rejected, and is priced with its source. -/
lemma priced_of_prepare (h : input.prepareEvaluatedRoute = some (some prepared)) :
    input.plan.action ≠ .reject ∧ prepared.flashSource = input.plan.source ∧
      Priced input prepared input.plan.source := by
  rcases PrepareDispatchInput.prepare_cases h with ⟨cap, sim, hcap, -, rfl⟩ | ⟨-, hplan⟩
  · exact ⟨hcap.planned, rfl, priced_preparedAt input.plan.source sim⟩
  · have hbyPlan := (PrepareDispatchInput.prepareByPlan_eq_some hplan).2
    refine ⟨hbyPlan.planned, hbyPlan.flashSource, ?_⟩
    cases hbyPlan with
    | unchanged _ hunchanged =>
        rcases PrepareDispatchInput.prepareUnchanged_eq_some hunchanged with ⟨-, rfl⟩
        refine ⟨input.reuseOrReassess input.plan.source, rfl, ?_⟩
        refine (reuseOrReassess_cases input.plan.source).imp id fun hfee => ?_
        exact of_decide_eq_true hfee
    | @resized sim _ _ => exact priced_preparedAt input.plan.source sim

end Priced

/-! ## Which sources survive -/

section Dispatch

variable {source : FlashLoanSource} {cycle : FoundCycle} {hops : List CalldataHop}
  {snapshot : TokenFlashLiquidity}

/-- What dispatch selects is the structural source, aligned when the preparation is not trusted. -/
lemma dispatchSource_eq (hdodo : source ≠ .dodo) (liquidity : Option TokenFlashLiquidity)
    (hhops : HopsOf cycle hops) :
    dispatchSource source hops liquidity false =
      match liquidity with
      | none => some (structuralFlashSource source hops)
      | some liquidity =>
          alignFlashSourceForDispatch (structuralFlashSource source hops) liquidity
            (routeIsBalancerOnly cycle) false (routeUsesBalancerVaultSwap cycle) := by
  have hstructural : structuralFlashSource source hops ≠ .dodo := by
    rw [structuralFlashSource]
    split_ifs
    · simp
    · exact hdodo
  have hno : ∀ p : Prop, ¬ (structuralFlashSource source hops = .dodo ∧ p) := fun p h =>
    hstructural h.1
  rw [dispatchSource, resolveDispatch, if_neg (hno _), if_neg (hno _), hhops.any_balancer,
    hhops.balancerOnly]
  cases liquidity with
  | none => rfl
  | some liquidity =>
      dsimp only
      cases alignFlashSourceForDispatch (structuralFlashSource source hops) liquidity
        (routeIsBalancerOnly cycle) false (routeUsesBalancerVaultSwap cycle) with
      | none => rfl
      | some aligned => rfl

/-- A source other than a direct one is structurally sound; a direct one when it fits one batch. -/
lemma structuralFlashSource_eq (hhops : HopsOf cycle hops)
    (hdirect : source = .direct → cycle.edges.length ≤ maxBalancerBatchHops)
    (honly : source = .direct → routeIsBalancerOnly cycle = true) :
    structuralFlashSource source hops = source := by
  refine if_neg ?_
  rintro ⟨hsource, hineligible⟩
  have heligible : balancerDirectBatchEligible cycle.edges = true := by
    have hpure := honly hsource
    rw [routeIsBalancerOnly] at hpure
    rw [balancerDirectBatchEligible, hpure, Bool.true_and, decide_eq_true_eq]
    exact hdirect hsource
  rw [hhops.balancerBatchDirectEligible, heligible] at hineligible
  cases hineligible

lemma structuralFlashSource_long (hhops : HopsOf cycle hops)
    (hlong : maxBalancerBatchHops < cycle.edges.length) :
    structuralFlashSource .direct hops = .aaveV3 := by
  refine if_pos ⟨rfl, ?_⟩
  rw [hhops.balancerBatchDirectEligible, balancerDirectBatchEligible,
    decide_eq_false (by omega), Bool.and_false]

lemma align_direct (vault : Bool) :
    alignFlashSourceForDispatch .direct snapshot true false vault = some .direct := by
  simp [alignFlashSourceForDispatch]

lemma align_aaveV3 (hviable : snapshot.aaveViable = true) (balancerOnly vault : Bool) :
    alignFlashSourceForDispatch .aaveV3 snapshot balancerOnly false vault = some .aaveV3 := by
  simp [alignFlashSourceForDispatch, hviable]

lemma align_aaveV3_ne_direct (balancerOnly vault : Bool) :
    alignFlashSourceForDispatch .aaveV3 snapshot balancerOnly false vault ≠ some .direct := by
  cases hviable : snapshot.aaveViable <;> simp [alignFlashSourceForDispatch, hviable]

/-- A vault loan is only kept where Aave cannot lend. -/
lemma align_balancer_iff (hne : snapshot.balancer ≠ 0) :
    alignFlashSourceForDispatch .balancer snapshot false false false = some .balancer ↔
      snapshot.aaveViable = false := by
  cases hviable : snapshot.aaveViable with
  | true => simp [alignFlashSourceForDispatch, hviable]
  | false =>
      refine iff_of_true ?_ rfl
      rw [alignFlashSourceForDispatch, if_pos ⟨rfl, .inl rfl⟩, hviable, if_neg (by simp),
        if_neg (by simp), if_pos ⟨hne, rfl⟩]

variable {policy : FlashLoanPolicy} {arena : StateArena} {amountIn : U256}

/-- The source of a plan survives dispatch, by its lender: a direct route when it fits one batch, an
Aave loan always, a vault loan when it is trusted or Aave cannot lend. -/
lemma dispatchSource_planRoute_iff (hhops : HopsOf cycle hops) (trust : Bool)
    (haction : (planRoute policy arena cycle amountIn snapshot).action ≠ .reject) :
    dispatchSource (planRoute policy arena cycle amountIn snapshot).source hops
        (if trust then none else some snapshot) false =
      some (planRoute policy arena cycle amountIn snapshot).source ↔
      (routeIsBalancerOnly cycle = true → cycle.edges.length ≤ maxBalancerBatchHops) ∧
        (trust = false → snapshot.aaveViable = true →
          ¬ PrefersVault policy cycle amountIn snapshot) := by
  have hcovered : Covered amountIn snapshot (planRoute policy arena cycle amountIn snapshot) :=
    covered_planRoute
  have hdirect := source_planRoute_direct_iff haction
  have hvault := fun hviable => source_planRoute_balancer_iff hviable haction
  have hallowed : (planRoute policy arena cycle amountIn snapshot).source = .balancer →
      routeUsesBalancerVaultSwap cycle = false :=
    fun hsource => not_forbid_of_source_balancer hsource haction
  rw [dispatchSource_eq (hcovered.ne_dodo haction) _ hhops]
  have hne_zero := hcovered.ne_zero haction
  have hne_dodo := hcovered.ne_dodo haction
  generalize (planRoute policy arena cycle amountIn snapshot).source = source at *
  cases source with
  | direct =>
      have hpure : routeIsBalancerOnly cycle = true := hdirect.mp rfl
      by_cases hlen : cycle.edges.length ≤ maxBalancerBatchHops
      · rw [structuralFlashSource_eq hhops (fun _ => hlen) fun _ => hpure, hpure]
        refine iff_of_true ?_ ⟨fun _ => hlen, fun _ hviable hprefers => ?_⟩
        · cases trust with
          | true => rfl
          | false => exact align_direct _
        · cases (hvault hviable).mpr hprefers
      · rw [structuralFlashSource_long hhops (by omega)]
        refine iff_of_false ?_ fun h => hlen (h.1 hpure)
        cases trust with
        | true => simp
        | false => exact align_aaveV3_ne_direct _ _
  | balancer =>
      have hmixed : routeIsBalancerOnly cycle ≠ true := fun hpure => by cases hdirect.mpr hpure
      rw [structuralFlashSource_eq hhops (by simp) (by simp), hallowed rfl,
        Bool.eq_false_of_not_eq_true hmixed]
      cases trust with
      | true => simp
      | false =>
          refine (align_balancer_iff (hne_zero (by simp))).trans ?_
          cases hviable : snapshot.aaveViable with
          | false => simp
          | true => simp [(hvault hviable).mp rfl]
  | aaveV3 =>
      have hmixed : routeIsBalancerOnly cycle ≠ true := fun hpure => by cases hdirect.mpr hpure
      have hviable : snapshot.aaveViable = true := by
        have hne : snapshot.aave ≠ 0 := hne_zero (by simp)
        simp only [TokenFlashLiquidity.aaveViable, snapshot.listed hne, Bool.true_and]
        exact decide_eq_true hne
      rw [structuralFlashSource_eq hhops (by simp) (by simp)]
      refine iff_of_true ?_ ⟨fun hpure => absurd hpure hmixed, fun _ _ hprefers => ?_⟩
      · cases trust with
        | true => rfl
        | false => exact align_aaveV3 hviable _ _
      · cases (hvault hviable).mpr hprefers
  | dodo => exact absurd rfl hne_dodo

/-- The source a route is priced with is the source it is dispatched with, unless the route is a pure
Balancer route too long for one batch, or the preparation is not trusted and the loan was planned from
the vault although Aave could lend. -/
theorem resolveDispatch_source_iff {input : PrepareDispatchInput} {prepared : PreparedDispatch}
    (h : input.prepareEvaluatedRoute = some (some prepared)) (hhops : HopsOf input.cycle hops)
    (trust : Bool) :
    Priced input prepared prepared.flashSource ∧
      (dispatchSource prepared.flashSource hops (if trust then none else some input.liquidity)
          (dodoBaseFlashPoolForCycle input.arena input.cycle).isSome = some prepared.flashSource ↔
        (routeIsBalancerOnly input.cycle = true →
          input.cycle.edges.length ≤ maxBalancerBatchHops) ∧
        (trust = false → input.liquidity.aaveViable = true →
          ¬ PrefersVault input.policy input.cycle input.amountIn input.liquidity)) := by
  rcases priced_of_prepare h with ⟨hplanned, hflash, hpriced⟩
  rw [hflash, dodoBaseFlashPoolForCycle_eq_none]
  exact ⟨hpriced, dispatchSource_planRoute_iff hhops trust hplanned⟩

end Dispatch

/-! ### A round trip and a ring -/

/-- The hop of an edge, before the amounts are filled in. -/
def hopOfEdge (arena : StateArena) (edge : Edge) : CalldataHop :=
  plainHop edge (arena.inner.poolAddresses[edge.poolIndex]?.getD 0) ((arena.tokenAddress edge.tokenIn).getD 0)
    ((arena.tokenAddress edge.tokenOut).getD 0) 0

/-- The round trip over two pairs is priced with the vault's fee, and the vault lends. -/
theorem resolveDispatch_source_iff_roundTrip :
    ∃ prepared, (roundTripInput (wholeTokens 1000) 0).prepareEvaluatedRoute = some (some prepared) ∧
      Priced (roundTripInput (wholeTokens 1000) 0) prepared prepared.flashSource ∧
      dispatchSource prepared.flashSource (roundTrip.edges.map (hopOfEdge spreadArena))
          (some (roundTripInput (wholeTokens 1000) 0).liquidity)
          (dodoBaseFlashPoolForCycle spreadArena roundTrip).isSome = some prepared.flashSource := by
  have hrun : ((roundTripInput (wholeTokens 1000) 0).prepareEvaluatedRoute.map
      Option.isSome) = some true := by
    decide +kernel
  rcases Option.map_eq_some_iff.mp hrun with ⟨found, hfound, hsome⟩
  rcases Option.isSome_iff_exists.mp hsome with ⟨prepared, rfl⟩
  have hhops : HopsOf (roundTripInput (wholeTokens 1000) 0).cycle
      (roundTrip.edges.map (hopOfEdge spreadArena)) := rfl
  rcases resolveDispatch_source_iff hfound hhops false with ⟨hpriced, hsource⟩
  refine ⟨prepared, hfound, hpriced, hsource.mpr ⟨?_, ?_⟩⟩
  · intro hpure
    exact absurd hpure (by decide)
  · intro _ hviable
    exact absurd hviable (by decide)

/-- An even pool over two tokens. -/
def evenPool (token0 token1 : Address) (balance0 balance1 : U256) : PoolState :=
  .balancer
    { poolId := none
      tokens := [token0, token1]
      balances := [balance0, balance1]
      weights := [500000000000000000#256, 500000000000000000#256]
      scalingFactors := [wholeTokens 1, wholeTokens 1]
      amp := 0
      ampPrecision := 0
      fee := 1000000000000000#256
      poolType := .weighted
      linear := none
      bptIndex := none
      isUpdating := false
      lastChangeBlock := 0 }

/-- Five tokens in a ring of Balancer pools, the last of which pays three percent more. -/
def ringArena : StateArena :=
  let base := pairArena .invalid
  { base with
    inner :=
      { base.inner with
        tokens := [0xa0000#160, 0xb0000#160, 0xc0000#160, 0xd0000#160, 0xe0000#160]
        tokenDecimals := [18, 18, 18, 18, 18]
        pools :=
          [⟨none, evenPool 0xa0000#160 0xb0000#160 (wholeTokens 100000) (wholeTokens 100000)⟩,
            ⟨none, evenPool 0xb0000#160 0xc0000#160 (wholeTokens 100000) (wholeTokens 100000)⟩,
            ⟨none, evenPool 0xc0000#160 0xd0000#160 (wholeTokens 100000) (wholeTokens 100000)⟩,
            ⟨none, evenPool 0xd0000#160 0xe0000#160 (wholeTokens 100000) (wholeTokens 100000)⟩,
            ⟨none, evenPool 0xe0000#160 0xa0000#160 (wholeTokens 100000) (wholeTokens 103000)⟩]
        poolAddresses := [0x10000#160, 0x20000#160, 0x30000#160, 0x40000#160, 0x50000#160] } }

def ringEdge (pool tokenOut : ℕ) : Edge :=
  { pairEdge .balancerV2 0 1 with poolIndex := pool, tokenIn := pool, tokenOut := tokenOut }

def ring : FoundCycle where
  startToken := 0
  edges := [ringEdge 0 1, ringEdge 1 2, ringEdge 2 3, ringEdge 3 4, ringEdge 4 0]
  hopCount := 5
  logWeight := 0.0
  cumulativeFeeBps := 50
  score := 0.0
  cycleRatio := 0

/-- What the evaluation found: twenty tokens in. -/
def ringResult : RouteSimulationResult where
  amountIn := 20000000000000000000#256
  amountOut := 20476790352276172000#256
  profit := 476790352276172000#256
  profitable := true
  hopAmounts :=
    [20000000000000000000#256, 19976008793443100000#256, 19952051146781600000#256,
      19928127001613000000#256, 19904236299664400000#256, 20476790352276172000#256]
  totalGas := 1702000
  hopCount := 5

/-- Both lenders have a thousand tokens, and the dollar cap does not bind. -/
def ringInput : PrepareDispatchInput :=
  { roundTripInput (wholeTokens 1000) 0 with
    evaluated := ⟨ring, ringResult, none, 0⟩
    arena := ringArena
    liquidity := ⟨wholeTokens 1000, wholeTokens 1000, true, 0, by simp⟩
    tokenDecimals := [(0xa0000#160, 18#8)]
    maxFlashLoanUsd := 100#64 }

/-- A five-hop ring is priced without a fee and dispatched as an Aave loan, whose fee is a hundredth of
a token. -/
theorem resolveDispatch_ring :
    ∃ prepared assessment, ringInput.prepareEvaluatedRoute = some (some prepared) ∧
      prepared.flashSource = .direct ∧ prepared.evaluated.assessment = some assessment ∧
      assessment.flashLoanFee = 0 ∧
      dispatchSource prepared.flashSource (ring.edges.map (hopOfEdge ringArena)) none
          (dodoBaseFlashPoolForCycle ringArena ring).isSome = some .aaveV3 ∧
      flashLoanFeeAmount ringInput.fees .aaveV3 prepared.amountIn =
        some 10000000000000000#256 := by
  have hrun : (ringInput.prepareEvaluatedRoute.map (·.map fun prepared =>
      (prepared.flashSource, prepared.amountIn,
        prepared.evaluated.assessment.map ProfitAssessment.flashLoanFee))) =
          some (some (.direct, 20000000000000000000#256, some 0)) := by
    decide
  rcases Option.map_eq_some_iff.mp hrun with ⟨found, hfound, hmap⟩
  rcases Option.map_eq_some_iff.mp hmap with ⟨prepared, rfl, hparts⟩
  rcases Prod.mk.inj hparts with ⟨hsource, hparts⟩
  rcases Prod.mk.inj hparts with ⟨hamount, hfee⟩
  rcases Option.map_eq_some_iff.mp hfee with ⟨assessment, hassessment, hzero⟩
  refine ⟨prepared, assessment, hfound, hsource, hassessment, hzero, ?_, ?_⟩
  · rw [hsource]
    decide
  · rw [hamount]
    decide

example : (simulateRouteDetailed ringArena ring.edges ringResult.amountIn).join.map
    (fun sim => (sim.amountOut, sim.profit, sim.hopAmounts, sim.totalGas)) =
      some (ringResult.amountOut, ringResult.profit, ringResult.hopAmounts, ringResult.totalGas) := by
  decide

end PolygonArb

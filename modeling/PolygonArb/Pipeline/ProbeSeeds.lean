import PolygonArb.Pipeline.Ternary

/-!
# Sizing with probe seeds

`optimize_cycle` of `pipeline/ternary.rs` as the evaluation calls it.  The evaluation has already
simulated the route at a few sizes; these seeds move the upper end of the window before the search, and
the search starts from their scores.

The adjustments of the window are written as stages, each of which passes a window on or ends the
sizing (`windowStages`).  Without seeds the sizing is `SizingInput.optimizeCycle`
(`optimizeCycleSeeded_none`).
-/

namespace PolygonArb

open Word Loop

/-- A size the route was simulated at, with the simulation. -/
abbrev ProbeSeed := U256 × MinimalSimResult

/-- The largest seed with a profit; the first of equals. -/
def maxFeasibleSeed (seeds : List ProbeSeed) : Option ProbeSeed :=
  seeds.foldl (fun best seed =>
    if seed.2.profit ≠ 0 ∧ (best.map Prod.fst).getD 0 < seed.1 then some seed else best) none

/-- The size at which a profit in proportion to the seed's pays the gas, and a fifth more. -/
def breakevenHeadroom (ctx : ProfitEvalContext) (seed : ProbeSeed) : U256 :=
  let gasUnits := scaledSimulatedGas seed.2.totalGas ctx.gasScaleBps
  let gasCostMatic := saturatingMul ctx.gasPrice (BitVec.ofNat 256 gasUnits)
  let scale := tenPowU256 ctx.tokenDecimals.toNat
  let gasCostStart := (checkedDiv (saturatingMul gasCostMatic scale) ctx.tokenToMaticRate).getD 0
  let breakeven := (checkedDiv (saturatingMul seed.1 gasCostStart) seed.2.profit).getD 0
  if gasCostStart = 0 then 0 else saturatingMul breakeven 12#256 / 10#256

/-- How far the search may go beyond the largest profitable seed: eight times its size, or the size that
pays the gas. -/
def seedHigh (ctx : Option ProfitEvalContext) (seed : ProbeSeed) : U256 :=
  let eightfold := saturatingMul seed.1 8#256
  match ctx with
  | none => eightfold
  | some ctx =>
      if seed.2.profit ≠ 0 ∧ seed.1 ≠ 0 ∧ 0 < seed.2.totalGas ∧ ctx.gasPrice ≠ 0 ∧
          ctx.tokenToMaticRate ≠ 0 then max eightfold (breakevenHeadroom ctx seed)
      else eightfold

/-- The new upper end of the window, when the seeds change it.  It is raised sixteenfold at most, and
not above the flash cap. -/
def clampBrentHighToProbeSeeds (high low economicFloor : U256) (flashCap : Option U256)
    (seeds : List ProbeSeed) (ctx : Option ProfitEvalContext) : Option U256 := do
  let seed ← maxFeasibleSeed seeds
  let seedHigh := seedHigh ctx seed
  if seedHigh < economicFloor then none
  else if high < seedHigh then
    let raised := min seedHigh (saturatingMul high 16#256)
    if high < raised then some ((flashCap.map (min raised)).getD raised) else none
  else if high ≤ seedHigh then none
  else some (if seedHigh ≤ low then saturatingAdd low 1#256 else seedHigh)

/-- The largest profitable seed below the window, when none lies in it. -/
def seedBelow (low high economicFloor : U256) (seeds : List ProbeSeed) : Option U256 :=
  let profitable := seeds.filter fun seed => seed.2.profit ≠ 0
  if profitable.any fun seed => low ≤ seed.1 ∧ seed.1 ≤ high then none
  else
    let below := profitable.filter fun seed => seed.1 < low ∧ economicFloor ≤ seed.1
    (some (below.foldl (fun best seed => if best < seed.1 then seed.1 else best) 0)).filter (· ≠ 0)

namespace SizingInput

variable (input : SizingInput) (seeds : Option (List ProbeSeed))

/-! ## The stages of the window -/

/-- The window of `computeTernarySearchBounds` with the flash cap it resolved; the start token has to
have a rate and decimals.  The shallow caps are computed later. -/
def openWindow : Option (Window × Option U256) := do
  let startRate ← resolveTokenToMaticRateOrBootstrap input.cycle.startToken input.tokenToMaticRates
  let startDecimals ← input.startDecimals
  if startRate = 0 then none
  else do
    let bounds ← input.computeTernarySearchBounds startRate startDecimals
    let floor := minEconomicAmountIn startDecimals startRate
    some (⟨bounds.low, bounds.high, floor, startDecimals, startRate, none⟩, bounds.flashCap)

def ticklessCap : Option U256 :=
  ticklessClStartInputCap input.arena input.cycle.startToken input.cycle.edges

/-- Not above the probe size when a hop has no ticks. -/
def clampToTickless (w : Window) : Run (Option Window) :=
  match input.ticklessCap with
  | none => pure (some w)
  | some cap =>
      let high := min w.high cap
      pure (if high ≤ w.low then none else some { w with high := high })

def clampToSeeds (flashCap : Option U256) (w : Window) : Run (Option Window) :=
  let clamped := seeds.bind fun seeds =>
    clampBrentHighToProbeSeeds w.high w.low w.economicFloor flashCap seeds (some input.profitCtx)
  pure (some { w with high := clamped.getD w.high })

/-- Not above what the vault lets in. -/
def clampToVault (w : Window) : Run (Option Window) := do
  match ← balancerMaxInHighClamp input.arena input.cycle.edges w.low w.high w.economicFloor with
  | some .windowInfeasible => pure none
  | some (.clamped low high) => pure (if high ≤ low then none else some { w with low := low, high := high })
  | none => pure (some w)

/-- Not above what the ticks can take. -/
def clampToDepth (w : Window) : Run (Option Window) := do
  match ← clampBrentHighToClFeasible input.arena input.cycle.edges w.low w.high w.economicFloor
      w.shallowCaps with
  | .noop => pure (some w)
  | .windowInfeasible => pure none
  | .clamped high => pure (if high ≤ w.low then none else some { w with high := high })

/-- The clamps may leave every seed below the window; then it is opened down to the best one. -/
def reincludeSeeds (w : Window) : Run (Option Window) :=
  match seeds.bind (seedBelow w.low w.high w.economicFloor) with
  | none => pure (some w)
  | some low =>
      pure (some { w with low := low, high := if w.high ≤ low then saturatingAdd low 1#256 else w.high })

def windowStages (flashCap : Option U256) : List (Window → Run (Option Window)) :=
  [input.clampToTickless, input.clampToSeeds seeds flashCap, input.clampToVault, input.clampToDepth,
    reincludeSeeds seeds]

/-! ## The search -/

/-- The simulations the search starts with, gas resolved, at most as many as the memo holds. -/
def seedCache : List (U256 × MinimalSimResult) :=
  (seeds.getD []).foldl (fun cache seed =>
    if brentCacheSlots ≤ cache.length then cache
    else if (cache.lookup seed.1).isSome then
      cache.map fun entry => if entry.1 = seed.1 then (seed.1, input.resolveGas seed.2) else entry
    else cache ++ [(seed.1, input.resolveGas seed.2)]) []

/-- A search whose probes all came out without a profit is cut short. -/
def seededIterations : ℕ :=
  match seeds with
  | none => input.maxIterations
  | some seeds =>
      if seeds.all fun seed => seed.2.profit = 0 then min input.maxIterations 6 else input.maxIterations

/-- Search the window from the scores of the seeds.  `order` is the order in which the memo, a hash map,
lists its entries. -/
def searchSeeded (order : List (U256 × MinimalSimResult) → List (U256 × MinimalSimResult))
    (w : Window) (simNoneSamples : ℕ) : Run (Option OptimizationResult) := do
  let cache := input.seedCache seeds
  let inWindow := (order cache).filter fun entry => w.low ≤ entry.1 ∧ entry.1 ≤ w.high
  let warm := inWindow.map fun entry =>
    (entry.1, brentScoreMaticFromSim input.fees entry.2 entry.1 input.profitCtx)
  let (optimal, memo) ←
    (solveBrentOptimalWarm (input.evaluate w) w.low w.high (input.seededIterations seeds) warm).run
      ⟨cache, saturatingAdd w.high 1#256, simNoneSamples⟩
  if optimal < w.economicFloor then pure none
  else
    let sim ← match memo.simCache.lookup optimal with
      | some sim => pure (some sim)
      | none =>
          (simulateRouteMinimalWithCaps input.arena input.cycle.edges optimal w.shallowCaps).map
            (·.map input.resolveGas)
    pure do
      let sim ← sim
      if sim.profit = 0 then none
      else
        let sanity := w.sanity optimal sim.profit w.low
        match checkSimSanityForDispatch sanity with
        | .error _ => none
        | .ok () =>
            let searchLow := if (checkSimSanity sanity).isOk then w.low else 0
            some ⟨optimal, sim.amountOut, sim.profit, sim.totalGas, searchLow⟩

/-- Search the window the stages end with, if any. -/
def searchAfter (order : List (U256 × MinimalSimResult) → List (U256 × MinimalSimResult))
    (simNoneSamples : ℕ) : Option Window → Run (Option OptimizationResult)
  | none => pure none
  | some w => input.searchSeeded seeds order w simNoneSamples

/-- `optimize_cycle`, without the simulation cache that evaluation workers share. -/
def optimizeCycleSeeded (order : List (U256 × MinimalSimResult) → List (U256 × MinimalSimResult))
    (simNoneSamples : ℕ) : Run (Option OptimizationResult) :=
  match input.openWindow with
  | none => pure none
  | some (w, flashCap) => do
      let shallowCaps ← precomputeRouteShallowCaps input.arena input.cycle.edges
      let w := { w with shallowCaps := shallowCaps }
      -- a floor above the cap of a route without ticks leaves one size to try
      match input.ticklessCap.filter fun cap => cap = 0 ∨ cap < w.economicFloor with
      | some cap => if cap = 0 then pure none else input.optimizeAtAmountCap w cap
      | none =>
          runStages (input.windowStages seeds flashCap) w >>=
            input.searchAfter seeds order simNoneSamples

variable {input}

lemma searchSeeded_none {order : List (U256 × MinimalSimResult) → List (U256 × MinimalSimResult)}
    (horder : order [] = []) (w : Window) (simNoneSamples : ℕ) :
    input.searchSeeded none order w simNoneSamples = input.searchWindow w simNoneSamples := by
  have hcache : input.seedCache none = [] := rfl
  simp only [searchSeeded, hcache, horder, List.filter_nil, List.map_nil]
  rfl

/-- The last stages are the end of `searchFeasible`. -/
lemma runStages_depth {order : List (U256 × MinimalSimResult) → List (U256 × MinimalSimResult)}
    (horder : order [] = []) (w : Window) (simNoneSamples : ℕ) :
    runStages [input.clampToDepth, reincludeSeeds none] w >>=
        input.searchAfter none order simNoneSamples =
      searchFeasible.clampToDepth input simNoneSamples w := by
  have hend : ∀ w : Window,
      runStages [reincludeSeeds none] w >>= input.searchAfter none order simNoneSamples =
        input.searchWindow w simNoneSamples := fun w => searchSeeded_none horder w simNoneSamples
  rw [searchFeasible.clampToDepth, runStages, clampToDepth]
  cases clampBrentHighToClFeasible input.arena input.cycle.edges w.low w.high w.economicFloor
    w.shallowCaps with
  | none => rfl
  | some clamp =>
      cases clamp with
      | noop => exact hend w
      | windowInfeasible => rfl
      | clamped high =>
          by_cases h : high ≤ w.low
          · simp [h, searchAfter]
          · simpa [h] using hend { w with high := high }

/-- From the vault on the stages do what `searchFeasible` does. -/
lemma runStages_vault {order : List (U256 × MinimalSimResult) → List (U256 × MinimalSimResult)}
    (horder : order [] = []) (w : Window) (simNoneSamples : ℕ) :
    runStages [input.clampToVault, input.clampToDepth, reincludeSeeds none] w >>=
        input.searchAfter none order simNoneSamples =
      input.searchFeasible w simNoneSamples := by
  rw [searchFeasible, runStages, clampToVault]
  cases balancerMaxInHighClamp input.arena input.cycle.edges w.low w.high w.economicFloor with
  | none => rfl
  | some clamp =>
      cases clamp with
      | none => exact runStages_depth horder w simNoneSamples
      | some clamp =>
          cases clamp with
          | windowInfeasible => rfl
          | clamped low high =>
              by_cases h : high ≤ low
              · simp [h, searchAfter]
              · simpa [h] using
                  runStages_depth horder { w with low := low, high := high } simNoneSamples

lemma runStages_windowStages_none
    {order : List (U256 × MinimalSimResult) → List (U256 × MinimalSimResult)}
    (horder : order [] = []) (flashCap : Option U256) (w : Window) (simNoneSamples : ℕ) :
    runStages (input.windowStages none flashCap) w >>= input.searchAfter none order simNoneSamples =
      match input.ticklessCap with
      | none => input.searchFeasible w simNoneSamples
      | some cap =>
          if min w.high cap ≤ w.low then pure none
          else input.searchFeasible { w with high := min w.high cap } simNoneSamples := by
  -- the stage of the seeds passes every window on
  have hseeds : ∀ w : Window,
      runStages [input.clampToSeeds none flashCap, input.clampToVault, input.clampToDepth,
          reincludeSeeds none] w >>= input.searchAfter none order simNoneSamples =
        input.searchFeasible w simNoneSamples := fun w => runStages_vault horder w simNoneSamples
  rw [windowStages, runStages, clampToTickless]
  cases input.ticklessCap with
  | none => exact hseeds w
  | some cap =>
      by_cases h : min w.high cap ≤ w.low
      · simp [h, searchAfter]
      · simpa [h] using hseeds { w with high := min w.high cap }

/-- Without seeds nothing is raised, nothing is re-included, and the search starts cold. -/
theorem optimizeCycleSeeded_none
    {order : List (U256 × MinimalSimResult) → List (U256 × MinimalSimResult)}
    (horder : order [] = []) (simNoneSamples : ℕ) :
    input.optimizeCycleSeeded none order simNoneSamples = input.optimizeCycle simNoneSamples := by
  simp only [optimizeCycleSeeded, optimizeCycle, openWindow]
  cases resolveTokenToMaticRateOrBootstrap input.cycle.startToken input.tokenToMaticRates with
  | none => rfl
  | some startRate =>
      cases input.startDecimals with
      | none => rfl
      | some startDecimals =>
          by_cases hrate : startRate = 0
          · simp [hrate]
          · simp only [Option.bind_eq_bind, Option.bind_some, if_neg hrate]
            cases input.computeTernarySearchBounds startRate startDecimals with
            | none => rfl
            | some bounds =>
                simp only [Option.bind_some]
                refine congrArg _ (funext fun caps => ?_)
                rw [← Option.bind_eq_bind, runStages_windowStages_none horder, ticklessCap]
                cases ticklessClStartInputCap input.arena input.cycle.startToken input.cycle.edges with
                | none => rfl
                | some cap =>
                    rw [Option.filter_some]
                    by_cases hzero : cap = 0
                    · simp only [hzero, true_or, decide_true, if_true]
                    · by_cases hlow : cap < minEconomicAmountIn startDecimals startRate
                      · simp only [hzero, hlow, or_true, decide_true, if_true, if_false]
                      · simp only [hzero, hlow, or_false, decide_false, Bool.false_eq_true, if_false]

end SizingInput

end PolygonArb

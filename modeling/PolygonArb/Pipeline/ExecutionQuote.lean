import PolygonArb.Pipeline.RouteTrace

/-!
# The execution quote and the ranking quote

`simulate_hop_amount_out_for_execution` beside `simulate_hop_amount_out` and the walk of
`local_sim.rs`.  The execution quote is the ranking quote or a refusal
(`executionQuote_eq_or_refuses`), and the hop of a walk over the route pays what it promises
(`executionQuote_refines`).

The walk has caps the two quotes do not know of.  They stand on tickless pools only
(`routeShallowCaps_of_not_tickless`), and those the execution quote refuses at every size.
-/

namespace PolygonArb

open Word Loop

/-! ## Tickless pools -/

section Swap

variable {s : ConcentratedLiquidityPoolState} {amountIn : U256} {zeroForOne : Bool}
  {edgeFeeBps : Option ℕ} {allowZeroPoolFee : Bool} {r : V3SwapResult}

/-- A swap either does nothing or walks. -/
lemma simulateV3Swap_eq_some
    (h : simulateV3Swap s amountIn zeroForOne edgeFeeBps allowZeroPoolFee = some r) :
    ∃ feePips, swapFeePips s zeroForOne edgeFeeBps allowZeroPoolFee = some feePips ∧
      ((amountIn = 0 ∨ swapDisabled s feePips = true) ∧ r = ⟨0, s.sqrtPriceX96, s.tick, 0, false, false⟩ ∨
        amountIn ≠ 0 ∧ swapDisabled s feePips = false ∧
          ∃ w, w = repeatLoop (swapContext s zeroForOne feePips).walkStep maxIterations
              (initialWalk s amountIn) ∧
            r.sqrtPriceX96After = w.sqrtPriceX96 ∧ r.synthetic = w.usedSynthetic ∧
            r.shallow = (s.ticks.isEmpty || w.tickDataExhausted || (w.amountRemaining ≠ 0 : Bool))) := by
  rw [simulateV3Swap] at h
  cases hfee : swapFeePips s zeroForOne edgeFeeBps allowZeroPoolFee with
  | none =>
      rw [hfee] at h
      cases h
  | some feePips =>
      rw [hfee] at h
      simp only [Option.bind_eq_bind, Option.bind_some] at h
      refine ⟨feePips, rfl, ?_⟩
      split_ifs at h with hidle
      · cases h
        exact .inl ⟨hidle, rfl⟩
      · cases h
        rw [not_or, Bool.not_eq_true] at hidle
        refine .inr ⟨hidle.1, hidle.2, _, rfl, rfl, rfl, ?_⟩
        rw [V3SwapContext.hasTicks, Bool.not_not]
        rfl

/-- A pool without loaded ticks is shallow at every size it quotes. -/
lemma simulateV3Swap_tickless (hticks : s.ticks = [])
    (h : simulateV3Swap s amountIn zeroForOne edgeFeeBps allowZeroPoolFee = some r) :
    r.shallow = true ∨ r.amountOut = 0 := by
  rcases simulateV3Swap_eq_some h with ⟨feePips, -, ⟨-, rfl⟩ | ⟨-, -, w, -, -, -, hshallow⟩⟩
  · exact .inr rfl
  · exact .inl (by rw [hshallow, hticks]; rfl)

end Swap

lemma executionClQuote_eq_some {r : V3SwapResult} {out : U256} :
    executionClQuote r = some out ↔
      r.shallow = false ∧ r.synthetic = false ∧ out ≠ 0 ∧ r.amountOut = out := by
  rw [executionClQuote]
  split_ifs with h
  · simp only [Bool.or_eq_true, decide_eq_true_eq] at h
    refine iff_of_false (by simp) ?_
    rintro ⟨hshallow, hsynthetic, hout, rfl⟩
    rw [hshallow, hsynthetic] at h
    exact hout (h.resolve_left (by simp))
  · simp only [Bool.or_eq_true, decide_eq_true_eq, not_or, Bool.not_eq_true] at h
    rw [Option.some_inj]
    constructor
    · rintro rfl
      exact ⟨h.1.1, h.1.2, h.2, rfl⟩
    · exact fun h => h.2.2.2

/-! ## One hop -/

section Hop

variable {state : PoolState} {edge : Edge} {amountIn cap out : U256}

/-- A concentrated-liquidity hop within its cap is its swap, judged. -/
lemma simulateHop_of_cl (h0 : amountIn ≠ 0) (hcl : edge.protocol.isCl = true)
    (hm : protocolMatchesPoolState edge.protocol state = true)
    (hcap : clHopExceedsShallowCap amountIn cap = false) :
    ∃ s, clHopTickless state = s.ticks.isEmpty ∧
      simulateHop state edge amountIn cap =
        (clSwapOf state edge amountIn).map (clHopResult s amountIn cap) := by
  rw [simulateHop, if_neg h0, hcap, Bool.and_false, if_neg (by simp)]
  rcases edge with ⟨_, _, _, _, _, protocol, _, _⟩
  cases state <;> cases protocol <;>
    first
    | exact ⟨_, rfl, rfl⟩
    | exact absurd hcl Bool.false_ne_true
    | exact absurd hm Bool.false_ne_true

lemma clHopResult_of_execution {s : ConcentratedLiquidityPoolState} {r : V3SwapResult}
    (h : executionClQuote r = some out) (cap : U256) :
    clHopResult s amountIn cap r = .ok ⟨out, r.gasEstimate⟩ := by
  rcases executionClQuote_eq_some.mp h with ⟨hshallow, hsynthetic, -, rfl⟩
  simp [clHopResult, hshallow, hsynthetic]

/-- An edge whose family is not the pool's is refused by both quotes. -/
lemma executionQuote_of_mismatch (h0 : amountIn ≠ 0)
    (hm : protocolMatchesPoolState edge.protocol state = false) :
    simulateHopAmountOutForExecution state edge amountIn = some none := by
  have hrank : simulateHopAmountOut state edge amountIn = some none := by
    rcases @simulateHop_of_mismatch _ _ _ maxValue h0 hm with ⟨reject, hreject⟩
    rw [simulateHopAmountOut, simulateHopAmountOutWithCap, hreject]
    rfl
  have hexec : simulateHopAmountOutForExecution state edge amountIn =
      (simulateHopAmountOut state edge amountIn).map (·.filter (· ≠ 0)) := by
    unfold simulateHopAmountOutForExecution
    rw [if_neg h0]
    rcases edge with ⟨_, _, _, _, _, protocol, _, _⟩
    cases state <;> cases protocol <;> first | rfl | cases hm
  rw [hexec, hrank]
  rfl

/-- The execution quote only adds refusals to the ranking quote. -/
lemma executionQuote_eq_or_refuses (state : PoolState) (edge : Edge) (amountIn : U256) :
    simulateHopAmountOutForExecution state edge amountIn = simulateHopAmountOut state edge amountIn ∨
      simulateHopAmountOutForExecution state edge amountIn = some none := by
  by_cases h0 : amountIn = 0
  · exact .inr (if_pos h0)
  cases hcl : edge.protocol.isCl with
  | false =>
      rw [simulateHopAmountOutForExecution_of_not_cl h0 hcl]
      cases simulateHopAmountOut state edge amountIn with
      | none => exact .inl rfl
      | some quote =>
          cases quote with
          | none => exact .inl rfl
          | some q =>
              by_cases hq : q = 0
              · exact .inr (by simp [hq])
              · refine .inl (congrArg some ?_)
                show (some q).filter (· ≠ 0) = some q
                rw [Option.filter_some, if_pos (decide_eq_true hq)]
  | true =>
      cases hm : protocolMatchesPoolState edge.protocol state with
      | false => exact .inr (executionQuote_of_mismatch h0 hm)
      | true =>
          rcases simulateHop_of_cl h0 hcl hm (not_exceeds_maxValue amountIn) with ⟨s, -, hhop⟩
          rw [simulateHopAmountOutForExecution_of_cl h0 hcl hm, simulateHopAmountOut,
            simulateHopAmountOutWithCap, hhop]
          cases clSwapOf state edge amountIn with
          | none => exact .inl rfl
          | some r =>
              simp only [Option.map_some]
              cases hquote : executionClQuote r with
              | none => exact .inr rfl
              | some out =>
                  rw [clHopResult_of_execution hquote]
                  exact .inl rfl

lemma ne_zero_of_execution
    (h : simulateHopAmountOutForExecution state edge amountIn = some (some out)) : amountIn ≠ 0 := by
  rintro rfl
  have hidle : simulateHopAmountOutForExecution state edge 0 = some none := if_pos rfl
  rw [hidle] at h
  cases h

/-- A hop the execution quote accepts is accepted under every cap that leaves it alone. -/
lemma simulateHop_of_execution
    (h : simulateHopAmountOutForExecution state edge amountIn = some (some out))
    (hcap : (edge.protocol.isCl && !clHopTickless state) = true →
      clHopExceedsShallowCap amountIn cap = false) :
    out ≠ 0 ∧ ∃ gas, simulateHop state edge amountIn cap = some (.ok ⟨out, gas⟩) := by
  have h0 := ne_zero_of_execution h
  cases hcl : edge.protocol.isCl with
  | false =>
      rw [simulateHopAmountOutForExecution_of_not_cl h0 hcl, simulateHopAmountOut,
        simulateHopAmountOutWithCap, simulateHop_cap_irrelevant hcl cap] at h
      cases hhop : simulateHop state edge amountIn cap with
      | none =>
          rw [hhop] at h
          cases h
      | some result =>
          rw [hhop] at h
          cases result with
          | error reject => cases h
          | ok hop =>
              have hfilter : (some hop.amountOut).filter (· ≠ 0) = some out := Option.some.inj h
              rcases Option.filter_eq_some_iff.mp hfilter with ⟨hout, hne⟩
              cases hout
              exact ⟨of_decide_eq_true hne, hop.gas, rfl⟩
  | true =>
      cases hm : protocolMatchesPoolState edge.protocol state with
      | false =>
          rw [executionQuote_of_mismatch h0 hm] at h
          cases h
      | true =>
          rw [simulateHopAmountOutForExecution_of_cl h0 hcl hm] at h
          rcases Option.map_eq_some_iff.mp h with ⟨r, hr, hquote⟩
          rcases executionClQuote_eq_some.mp hquote with ⟨hshallow, -, hout, hpaid⟩
          have htickless : clHopTickless state = false := by
            by_contra hempty
            rw [Bool.not_eq_false] at hempty
            have hshort : r.shallow = true ∨ r.amountOut = 0 := by
              cases state with
              | v3 s => exact simulateV3Swap_tickless (List.isEmpty_iff.mp hempty) hr
              | v4 s => exact simulateV3Swap_tickless (List.isEmpty_iff.mp hempty) hr
              | _ => cases hr
            rcases hshort with htrue | hzero
            · rw [hshallow] at htrue
              cases htrue
            · exact hout (hpaid ▸ hzero)
          rcases simulateHop_of_cl h0 hcl hm (hcap (by rw [hcl, htickless]; rfl)) with ⟨s, -, hhop⟩
          rw [hhop, hr, Option.map_some, clHopResult_of_execution hquote]
          exact ⟨hout, r.gasEstimate, rfl⟩

end Hop

/-! ## The caps of a route -/

section Caps

variable {edges : List Edge}

lemma getElem?_noCaps {i : ℕ} {cap : U256} (h : noCaps[i]? = some cap) : cap = maxValue := by
  rw [noCaps, Vector.getElem?_replicate] at h
  split_ifs at h
  exact (Option.some.inj h).symm

/-- The caps of a route stand on tickless hops only. -/
lemma routeShallowCaps_of_not_tickless {arena : StateArena} {caps : ShallowCaps} {i : ℕ} {edge : Edge}
    {cap : U256} (hcaps : resolveCaps arena edges none = some caps) (hedge : edges[i]? = some edge)
    (hcap : caps[i]? = some cap) (h : (edge.protocol.isCl && edgeTickless arena edge) = false) :
    cap = maxValue := by
  rw [resolveCaps] at hcaps
  split_ifs at hcaps
  · rw [routeShallowCaps, routeShallowCapsWith] at hcaps
    have hsame : caps[i]? = noCaps[i]? := by
      refine foldlM_inv (fun caps => caps[i]? = noCaps[i]?) edges.zipIdx noCaps caps ?_ rfl hcaps
      rintro ⟨e, n⟩ hmem s s' hs hstep
      dsimp only at hstep
      split_ifs at hstep with hset hn
      · -- the position that is written is a tickless hop's
        cases hstep
        rw [Vector.getElem?_set_ne hn, hs]
        rintro rfl
        rw [List.mk_mem_zipIdx_iff_getElem?.mp hmem] at hedge
        cases hedge
        rw [h] at hset
        cases hset
      · cases hstep
        exact hs
    exact getElem?_noCaps (hsame ▸ hcap)
  · cases hcaps
    exact getElem?_noCaps hcap

end Caps

/-! ## The hop of a walk -/

lemma realignMultiTokenEdge_cl {arena : StateArena} {state : PoolState} {edge realigned : Edge}
    (hcl : realigned.protocol.isCl = true)
    (h : realignMultiTokenEdge arena state edge = some realigned) : realigned = edge := by
  have hproto : realigned.protocol = edge.protocol := by
    rw [realignMultiTokenEdge] at h
    split_ifs at h with hmulti
    · cases htokens : vaultTokens state with
      | none =>
          rw [htokens] at h
          cases h
          rfl
      | some tokens =>
          rw [htokens] at h
          simp only [Option.bind_eq_bind] at h
          rcases Option.bind_eq_some_iff.mp h with ⟨tin, -, h⟩
          rcases Option.bind_eq_some_iff.mp h with ⟨tout, -, h⟩
          split_ifs at h
          · cases h
            rfl
          · rcases Option.bind_eq_some_iff.mp h with ⟨⟨inIdx, outIdx⟩, -, h⟩
            dsimp only at h
            split_ifs at h
            cases h
            rfl
    · cases h
      rfl
  have hmulti : edge.protocol.isMultiToken = false := by
    rw [hproto] at hcl
    cases hp : edge.protocol <;> rw [hp] at hcl <;> first | rfl | cases hcl
  rw [realignMultiTokenEdge, hmulti] at h
  cases h
  rfl

section Walk

variable {state : PoolState} {edge : Edge} {amountIn out : U256}

/-- In a walk over a route under the route's own caps, a hop with an execution quote is accepted and
pays that quote. -/
lemma walkHop_of_execution
    (h : simulateHopAmountOutForExecution state edge amountIn = some (some out))
    {arena : StateArena} {edges : List Edge} {caps : ShallowCaps} {i : ℕ} {routeEdge : Edge} {cap : U256}
    (hcaps : resolveCaps arena edges none = some caps) (hedge : edges[i]? = some routeEdge)
    (hcap : caps[i]? = some cap) (hpool : arena.poolState routeEdge.poolIndex = some state)
    (htradable : state.isTradable = true)
    (hrealign : realignMultiTokenEdge arena state routeEdge = some edge) :
    ∃ hop, walkHop arena routeEdge amountIn cap = some (some hop) ∧ hop.amountOut = out := by
  have hlift : (edge.protocol.isCl && !clHopTickless state) = true →
      clHopExceedsShallowCap amountIn cap = false := by
    intro hcl
    rw [Bool.and_eq_true, Bool.not_eq_true'] at hcl
    rcases hcl with ⟨hcl, hticks⟩
    obtain rfl := realignMultiTokenEdge_cl hcl hrealign
    have hmax : cap = maxValue := by
      refine routeShallowCaps_of_not_tickless hcaps hedge hcap ?_
      have hm : protocolMatchesPoolState edge.protocol state = true := by
        by_contra hm
        rw [executionQuote_of_mismatch (ne_zero_of_execution h) (Bool.eq_false_iff.mpr hm)] at h
        cases h
      rw [edgeTickless, hpool, hcl, Bool.true_and]
      cases state with
      | v3 s => exact hticks
      | v4 s => exact hticks
      | _ =>
          exfalso
          cases hp : edge.protocol <;> rw [hp] at hcl hm <;>
            first | exact Bool.false_ne_true hm | exact Bool.false_ne_true hcl
    rw [hmax]
    exact not_exceeds_maxValue amountIn
  rcases simulateHop_of_execution h hlift with ⟨hout, gas, hhop⟩
  refine ⟨⟨out, gas⟩, ?_, rfl⟩
  rw [walkHop, hpool]
  simp only [htradable, Bool.true_eq_false, if_false, hrealign, hhop, Option.map_some]
  rw [if_neg fun hzero => hout hzero.2]

/-- The execution quote refines the ranking quote: it is the ranking quote or a refusal, and where it
is given, the walk of any route over that hop pays the same. -/
theorem executionQuote_refines (state : PoolState) (edge : Edge) (amountIn : U256) :
    (simulateHopAmountOutForExecution state edge amountIn =
        simulateHopAmountOut state edge amountIn ∨
      simulateHopAmountOutForExecution state edge amountIn = some none) ∧
    ∀ out, simulateHopAmountOutForExecution state edge amountIn = some (some out) →
      simulateHopAmountOut state edge amountIn = some (some out) ∧
      ∀ (arena : StateArena) (edges : List Edge) (caps : ShallowCaps) (i : ℕ) (routeEdge : Edge)
        (cap : U256), resolveCaps arena edges none = some caps → edges[i]? = some routeEdge →
        caps[i]? = some cap → arena.poolState routeEdge.poolIndex = some state →
        state.isTradable = true → realignMultiTokenEdge arena state routeEdge = some edge →
        ∃ hop, walkHop arena routeEdge amountIn cap = some (some hop) ∧ hop.amountOut = out := by
  refine ⟨executionQuote_eq_or_refuses state edge amountIn, ?_⟩
  intro out hquote
  constructor
  · rcases executionQuote_eq_or_refuses state edge amountIn with hrank | hrefused
    · rw [← hrank]
      exact hquote
    · rw [hrefused] at hquote
      cases hquote
  · intro arena edges caps i routeEdge cap hcaps hedge hcap hpool htradable hrealign
    exact walkHop_of_execution hquote hcaps hedge hcap hpool htradable hrealign

end Walk

/-- A pool whose ticks are loaded: both quotes and the walk agree. -/
theorem executionQuote_refines_loaded :
    simulateHopAmountOut (.v3 (poolAtPriceOne 0 [⟨-60, 10, 10⟩, ⟨60, 10, -10⟩]))
        (pairEdge .uniswapV3 1 0) 1000000#256 = some (some 996999#256) ∧
      ∃ hop, walkHop (pairArena (.v3 (poolAtPriceOne 0 [⟨-60, 10, 10⟩, ⟨60, 10, -10⟩])))
        (pairEdge .uniswapV3 1 0) 1000000#256 maxValue = some (some hop) ∧
        hop.amountOut = 996999#256 := by
  rcases (executionQuote_refines (.v3 (poolAtPriceOne 0 [⟨-60, 10, 10⟩, ⟨60, 10, -10⟩]))
    (pairEdge .uniswapV3 1 0) 1000000#256).2 996999#256 (by decide) with ⟨hrank, hwalk⟩
  exact ⟨hrank, hwalk (pairArena (.v3 (poolAtPriceOne 0 [⟨-60, 10, 10⟩, ⟨60, 10, -10⟩])))
    [pairEdge .uniswapV3 1 0] noCaps 0 (pairEdge .uniswapV3 1 0) maxValue (by decide) rfl rfl rfl
    (by decide) rfl⟩

end PolygonArb

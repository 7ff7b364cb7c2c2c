import PolygonArb.Pipeline.LocalSim

/-!
# The trace of a route

`routeTrace` is the list of hop results of a route, or nothing when some hop refuses.  Everything the
route half of the simulator computes is read off it:

* `walkHopsFrom_eq` and `walkHopsFrom_amounts_eq`: both simulators return its last amount and the
  sum of its gas, and the detailed one its amounts;
* `minimalSimFailureFrom_isNone`: the diagnostic names a failure exactly when there is no trace;
* `hopFidelityReject_verified`, `hopFidelityReject_slow`: what the fidelity check makes of a hop
  that is on a trace.
-/

namespace PolygonArb

open Word

/-- The hop results from hop `i` on. -/
def routeTrace (arena : StateArena) (caps : ShallowCaps) :
    ℕ → List Edge → U256 → Run (Option (List HopResult))
  | _, [], _ => some (some [])
  | i, edge :: edges, current =>
      caps[i]?.bind fun cap =>
        (walkHop arena edge current cap).bind fun
        | none => some none
        | some hop => (routeTrace arena caps (i + 1) edges hop.amountOut).map (·.map (hop :: ·))

/-- The amount a trace ends with. -/
def traceAmount (current : U256) (hops : List HopResult) : U256 :=
  (hops.getLast?.map HopResult.amountOut).getD current

/-- The gas a trace accumulates. -/
def traceGas (gas : ℕ) (hops : List HopResult) : ℕ := hops.foldl (fun g hop => wrapAdd32 g hop.gas) gas

lemma traceAmount_cons (current : U256) (hop : HopResult) (hops : List HopResult) :
    traceAmount current (hop :: hops) = traceAmount hop.amountOut hops := by
  rw [traceAmount, traceAmount, List.getLast?_cons]
  cases hops.getLast? <;> rfl

lemma pos_of_ne_zero {a : U256} (h : a ≠ 0) : 0 < a := by
  rw [BitVec.lt_def]
  exact Nat.pos_of_ne_zero fun hz => h (BitVec.eq_of_toNat_eq hz)

/-- Everything an accepted hop says. -/
structure HopOnTrace (arena : StateArena) (edge : Edge) (current cap : U256) (hop : HopResult)
    (state : PoolState) (realigned : Edge) : Prop where
  pool : arena.poolState edge.poolIndex = some state
  tradable : state.isTradable = true
  realign : realignMultiTokenEdge arena state edge = some realigned
  quote : simulateHop state realigned current cap = some (.ok hop)
  nonzero : current ≠ 0 → hop.amountOut ≠ 0

lemma walkHop_some {arena : StateArena} {edge : Edge} {current cap : U256} {hop : HopResult}
    (h : walkHop arena edge current cap = some (some hop)) :
    ∃ state realigned, HopOnTrace arena edge current cap hop state realigned := by
  rw [walkHop] at h
  cases hpool : arena.poolState edge.poolIndex with
  | none =>
      rw [hpool] at h
      cases h
  | some state =>
      rw [hpool] at h
      dsimp only at h
      split at h
      · cases h
      · rename_i htr
        cases hre : realignMultiTokenEdge arena state edge with
        | none =>
            rw [hre] at h
            cases h
        | some realigned =>
            rw [hre] at h
            rcases Option.map_eq_some_iff.1 h with ⟨r, hr, hres⟩
            cases r with
            | error reject => cases hres
            | ok result =>
                dsimp only at hres
                split at hres
                · cases hres
                · rename_i hz
                  cases hres
                  exact ⟨state, realigned, hpool, by simpa using htr, hre, hr,
                    fun h0 hout => hz ⟨pos_of_ne_zero h0, hout⟩⟩

/-! ## The diagnostic -/

section Diagnostic

variable {arena : StateArena} {state : PoolState} {edge : Edge} {current cap : U256} {hop : ℕ}

lemma classifyFamily_refused (h0 : current ≠ 0) {failure : MinimalSimFailure}
    (h : classifyFamily state edge hop current cap = some failure) :
    ∃ reject, simulateHop state edge current cap = some (.error reject) := by
  rw [classifyFamily] at h
  split at h
  · rename_i hex
    simp only [Bool.and_eq_true] at hex
    exact ⟨_, simulateHop_of_exceeds h0 hex.1.2 hex.2⟩
  · split at h
    · cases h
    · rename_i hm
      exact simulateHop_of_mismatch h0 (Bool.eq_false_iff.2 hm)

/-- A hop classified as failing before it is simulated would be refused. -/
lemma classifyHop_refused (h0 : current ≠ 0) {failure : MinimalSimFailure}
    (h : classifyHop state edge hop current cap = some failure) :
    ∃ reject, simulateHop state edge current cap = some (.error reject) := by
  unfold classifyHop at h
  split at h
  · rename_i hp
    split at h
    · rename_i hle
      exact ⟨_, simulateHop_v2_of_le h0 hp hle⟩
    · cases h
  · exact classifyFamily_refused h0 h

/-- One hop: the diagnostic passes on exactly the amount the walk passes on. -/
lemma diagnoseHop_toOption (arena : StateArena) (edge : Edge) (cap : U256) (hop : ℕ)
    (h0 : current ≠ 0) :
    (diagnoseHop arena hop edge current cap).map Except.toOption =
      (walkHop arena edge current cap).map (·.map HopResult.amountOut) := by
  rw [diagnoseHop, walkHop]
  cases arena.poolState edge.poolIndex with
  | none => rfl
  | some state =>
      dsimp only
      split
      · rfl
      · cases realignMultiTokenEdge arena state edge with
        | none => rfl
        | some edge =>
            dsimp only
            cases hclass : classifyHop state edge hop current cap with
            | some failure =>
                rcases classifyHop_refused h0 hclass with ⟨reject, hrej⟩
                rw [hrej]
                rfl
            | none =>
                dsimp only
                rw [Option.map_map, Option.map_map]
                congr 1
                funext r
                cases r with
                | error reject => rfl
                | ok result =>
                    have hpos := pos_of_ne_zero h0
                    show Except.toOption (if _ then _ else _) = Option.map _ (if _ then _ else _)
                    by_cases hz : result.amountOut = 0
                    · rw [if_pos hz, if_pos ⟨hpos, hz⟩]
                      rfl
                    · rw [if_neg hz, if_neg fun hc => hz hc.2]
                      rfl

/-- The diagnostic reports no failure exactly when the route has a trace; they panic together. -/
theorem minimalSimFailureFrom_isNone (caps : ShallowCaps) (edges : List Edge) :
    ∀ (i : ℕ) (current : U256), current ≠ 0 →
      (minimalSimFailureFrom arena caps i edges current).map Option.isNone =
        (routeTrace arena caps i edges current).map Option.isSome := by
  induction edges with
  | nil => intro i current _; rfl
  | cons edge edges ih =>
      intro i current h0
      rw [minimalSimFailureFrom, routeTrace]
      simp only [Option.bind_eq_bind]
      cases caps[i]? with
      | none => rfl
      | some cap =>
          have hhop := diagnoseHop_toOption arena edge cap i h0
          rw [Option.bind_some, Option.bind_some]
          cases hw : walkHop arena edge current cap with
          | none =>
              rw [hw, Option.map_none, Option.map_eq_none_iff] at hhop
              rw [hhop]
              rfl
          | some res =>
              rw [hw, Option.map_some, Option.map_eq_some_iff] at hhop
              rcases hhop with ⟨outcome, hout, heq⟩
              rw [hout, Option.bind_some, Option.bind_some]
              cases outcome with
              | error failure =>
                  cases res with
                  | none => rfl
                  | some hop => cases heq
              | ok amount =>
                  cases res with
                  | none => cases heq
                  | some hop =>
                      rcases walkHop_some hw with ⟨state, realigned, hon⟩
                      have hamount : amount = hop.amountOut := Option.some.inj heq
                      dsimp only
                      rw [hamount, ih (i + 1) hop.amountOut (hon.nonzero h0), Option.map_map]
                      congr 1
                      funext t
                      cases t <;> rfl

end Diagnostic

/-! ## Inversion -/

/-- Every hop of a trace was walked from the amount the one before it left. -/
theorem routeTrace_some {arena : StateArena} {caps : ShallowCaps} (edges : List Edge) :
    ∀ {i : ℕ} {current : U256} {hops : List HopResult},
      routeTrace arena caps i edges current = some (some hops) →
      hops.length = edges.length ∧
        ∀ j edge, edges[j]? = some edge → ∃ cap hop amount,
          caps[i + j]? = some cap ∧ hops[j]? = some hop ∧
            (current :: hops.map HopResult.amountOut)[j]? = some amount ∧
            (current ≠ 0 → amount ≠ 0) ∧
            ∃ state realigned, HopOnTrace arena edge amount cap hop state realigned := by
  induction edges with
  | nil =>
      intro i current hops h
      cases h
      exact ⟨rfl, by simp⟩
  | cons edge edges ih =>
      intro i current hops h
      rw [routeTrace, Option.bind_eq_some_iff] at h
      rcases h with ⟨cap, hcap, h⟩
      rw [Option.bind_eq_some_iff] at h
      rcases h with ⟨res, hres, h⟩
      cases res with
      | none => cases h
      | some hop =>
          rcases Option.map_eq_some_iff.1 h with ⟨t, ht, hcons⟩
          cases t with
          | none => cases hcons
          | some tail =>
              have hhops : hop :: tail = hops := Option.some.inj hcons
              subst hhops
              rcases ih ht with ⟨hlen, hrest⟩
              rcases walkHop_some hres with ⟨state, realigned, hon⟩
              refine ⟨by rw [List.length_cons, List.length_cons, hlen], fun j e he => ?_⟩
              cases j with
              | zero =>
                  cases he
                  exact ⟨cap, hop, current, hcap, rfl, rfl, id, state, realigned, hon⟩
              | succ j =>
                  rcases hrest j e he with ⟨cap', hop', amount, hc, hh, ha, hnz, hon'⟩
                  refine ⟨cap', hop', amount, ?_, hh, ha, fun h0 => hnz (hon.nonzero h0), hon'⟩
                  rw [← hc, show i + (j + 1) = i + 1 + j by omega]

/-! ## The simulators -/

section Walk

variable (arena : StateArena) (caps : ShallowCaps)

/-- A walk agrees with the trace at an edge if it does after every hop the edge can make. -/
lemma walkHopsFrom_cons {f : List HopResult → RouteWalk} {i : ℕ} {edge : Edge} {edges : List Edge}
    {w : RouteWalk}
    (h : ∀ hop : HopResult, ∃ next,
      (RouteWalk.mk hop.amountOut (wrapAdd32 w.totalGas hop.gas) w.hopAmounts).record (i + 1)
        hop.amountOut = some next ∧
      walkHopsFrom arena caps (i + 1) edges next =
        (routeTrace arena caps (i + 1) edges hop.amountOut).map (·.map fun hops => f (hop :: hops))) :
    walkHopsFrom arena caps i (edge :: edges) w =
      (routeTrace arena caps i (edge :: edges) w.current).map (·.map f) := by
  rw [walkHopsFrom, routeTrace]
  simp only [Option.bind_eq_bind]
  cases caps[i]? with
  | none => rfl
  | some cap =>
      rw [Option.bind_some, Option.bind_some]
      cases walkHop arena edge w.current cap with
      | none => rfl
      | some res =>
          rw [Option.bind_some, Option.bind_some]
          cases res with
          | none => rfl
          | some hop =>
              rcases h hop with ⟨next, hrecord, hwalk⟩
              dsimp only
              rw [hrecord]
              refine hwalk.trans ?_
              rw [Option.map_map]
              congr 1
              funext t
              cases t <;> rfl

/-- Without a buffer the walk keeps the last amount and the gas. -/
theorem walkHopsFrom_eq (edges : List Edge) :
    ∀ (i : ℕ) (current : U256) (gas : ℕ),
      walkHopsFrom arena caps i edges ⟨current, gas, none⟩ =
        (routeTrace arena caps i edges current).map (·.map fun hops =>
          ⟨traceAmount current hops, traceGas gas hops, none⟩) := by
  induction edges with
  | nil => intro i current gas; rfl
  | cons edge edges ih =>
      intro i current gas
      refine walkHopsFrom_cons arena caps fun hop => ⟨_, rfl, (ih _ _ _).trans ?_⟩
      simp only [traceAmount_cons]
      rfl

/-- With a buffer the walk fills in the amounts behind the ones already written. -/
theorem walkHopsFrom_amounts_eq (edges : List Edge) :
    ∀ (i : ℕ) (current : U256) (gas : ℕ) (written blank : List U256),
      written.length = i + 1 → blank.length = edges.length →
      walkHopsFrom arena caps i edges ⟨current, gas, some (written ++ blank)⟩ =
        (routeTrace arena caps i edges current).map (·.map fun hops =>
          ⟨traceAmount current hops, traceGas gas hops,
            some (written ++ hops.map HopResult.amountOut)⟩) := by
  induction edges with
  | nil =>
      intro i current gas written blank _ hb
      rw [List.length_eq_zero_iff.1 hb]
      rfl
  | cons edge edges ih =>
      intro i current gas written blank hw hb
      rcases List.exists_cons_of_length_eq_add_one hb with ⟨b, rest, rfl⟩
      refine walkHopsFrom_cons arena caps fun hop => ?_
      have hset : (written ++ b :: rest).set (i + 1) hop.amountOut =
          (written ++ [hop.amountOut]) ++ rest := by
        rw [List.set_append_right _ _ (by omega), hw, Nat.sub_self, List.set_cons_zero,
          List.append_assoc]
        rfl
      refine ⟨⟨hop.amountOut, wrapAdd32 gas hop.gas, some ((written ++ [hop.amountOut]) ++ rest)⟩,
        ?_, ?_⟩
      · dsimp only [RouteWalk.record]
        rw [if_pos (by rw [List.length_append, List.length_cons]; omega), hset]
      · refine (ih (i + 1) _ _ (written ++ [hop.amountOut]) rest
          (by rw [List.length_append, hw]; rfl) (Nat.succ.inj hb)).trans ?_
        simp only [traceAmount_cons, List.append_assoc]
        rfl

lemma walkRouteHops_eq {edges : List Edge} (hlen : edges.length ≤ hopCap) (amountIn : U256)
    (pre : Option ShallowCaps) :
    walkRouteHops arena edges amountIn none pre =
      (resolveCaps arena edges pre).bind fun caps =>
        (routeTrace arena caps 0 edges amountIn).map (·.map fun hops =>
          ⟨traceAmount amountIn hops, traceGas 0 hops, none⟩) := by
  rw [walkRouteHops, if_neg (by omega)]
  simp only [Option.bind_eq_bind]
  congr 1
  funext caps
  exact walkHopsFrom_eq arena caps edges 0 amountIn 0

lemma walkRouteHops_amounts_eq {edges : List Edge} (hlen : edges.length ≤ hopCap) (amountIn : U256)
    (pre : Option ShallowCaps) :
    walkRouteHops arena edges amountIn (some (hopAmountsZeroed edges.length)) pre =
      (resolveCaps arena edges pre).bind fun caps =>
        (routeTrace arena caps 0 edges amountIn).map (·.map fun hops =>
          ⟨traceAmount amountIn hops, traceGas 0 hops,
            some (amountIn :: hops.map HopResult.amountOut)⟩) := by
  rw [walkRouteHops, if_neg (by omega)]
  simp only [Option.bind_eq_bind]
  congr 1
  funext caps
  exact walkHopsFrom_amounts_eq arena caps edges 0 amountIn 0 [amountIn]
    (List.replicate edges.length 0) rfl (List.length_replicate ..)

end Walk

lemma length_le_of_simulatable {arena : StateArena} {edges : List Edge}
    (h : routeEdgesSimulatable arena edges = true) : edges.length ≤ hopCap := by
  rw [routeEdgesSimulatable] at h
  simp only [Bool.and_eq_true, decide_eq_true_eq] at h
  exact h.1.2

lemma length_le_of_detailed {arena : StateArena} {edges : List Edge} {amountIn : U256}
    {pre : Option ShallowCaps} {r : RouteSimulationResult}
    (h : simulateRouteDetailedWithCaps arena edges amountIn pre = some (some r)) :
    edges.length ≤ hopCap := by
  rw [simulateRouteDetailedWithCaps] at h
  split at h
  · cases h
  · rename_i hsim
    exact length_le_of_simulatable (by simpa using hsim)

/-! ## The three functions agree -/

/-- The diagnostic reports no failure exactly when the minimal simulator returns a result. -/
theorem minimalSimFailure_isNone (arena : StateArena) (edges : List Edge) (amountIn : U256) :
    (minimalSimFailure arena edges amountIn).map Option.isNone =
      (simulateRouteMinimal arena edges amountIn).map Option.isSome := by
  rw [minimalSimFailure, simulateRouteMinimal, simulateRouteMinimalWithCaps]
  split
  · rfl
  · rename_i hsim
    have hlen := length_le_of_simulatable (by simpa using hsim)
    split
    · rfl
    · rename_i h0
      rw [walkRouteHops_eq arena hlen]
      simp only [Option.bind_eq_bind]
      cases resolveCaps arena edges none with
      | none => rfl
      | some caps =>
          rw [Option.bind_some, Option.bind_some, Option.map_map, Option.map_map,
            minimalSimFailureFrom_isNone caps edges 0 amountIn h0]
          congr 1
          funext t
          cases t <;> rfl

/-- What the amounts of a detailed result are: the input, then the quote of each realigned edge on the
amount before it, which is the execution quote unless the hop is tickless. -/
structure HopAmountsOk (arena : StateArena) (edges : List Edge) (amountIn : U256)
    (pre : Option ShallowCaps) (r : RouteSimulationResult) : Prop where
  length : r.hopAmounts.length = edges.length + 1
  first : r.hopAmounts[0]? = some amountIn
  last : r.hopAmounts[edges.length]? = some r.amountOut
  zero : amountIn = 0 → ∀ a ∈ r.hopAmounts, a = 0
  hop : amountIn ≠ 0 → ∀ i edge, edges[i]? = some edge →
    ∃ state realigned caps cap a b,
      arena.poolState edge.poolIndex = some state ∧
        realignMultiTokenEdge arena state edge = some realigned ∧
        resolveCaps arena edges pre = some caps ∧ caps[i]? = some cap ∧
        r.hopAmounts[i]? = some a ∧ r.hopAmounts[i + 1]? = some b ∧
        simulateHopAmountOutWithCap state realigned a cap = some (some b) ∧
        ((realigned.protocol.isCl && clHopTickless state) = false →
          simulateHopAmountOutForExecution state realigned a = some (some b))

/-- The trace behind a detailed result of a non-zero input. -/
lemma simulateRouteDetailed_trace {arena : StateArena} {edges : List Edge} {amountIn : U256}
    {pre : Option ShallowCaps} {r : RouteSimulationResult} (h0 : amountIn ≠ 0)
    (h : simulateRouteDetailedWithCaps arena edges amountIn pre = some (some r)) :
    ∃ caps hops, resolveCaps arena edges pre = some caps ∧
      routeTrace arena caps 0 edges amountIn = some (some hops) ∧
      r.hopAmounts = amountIn :: hops.map HopResult.amountOut ∧
      r.amountOut = traceAmount amountIn hops := by
  rw [simulateRouteDetailedWithCaps] at h
  split at h
  · cases h
  · rename_i hsim
    rw [walkRouteHops_amounts_eq arena (length_le_of_simulatable (by simpa using hsim)),
      Option.map_eq_some_iff] at h
    rcases h with ⟨w, hw, hr⟩
    rcases Option.bind_eq_some_iff.1 hw with ⟨caps, hcaps, ht⟩
    rcases Option.map_eq_some_iff.1 ht with ⟨t, htrace, hwt⟩
    cases t with
    | none =>
        rw [← hwt] at hr
        cases hr
    | some hops =>
        rw [← hwt] at hr
        cases hr
        exact ⟨caps, hops, hcaps, htrace, rfl, rfl⟩

/-- The amounts of a trace, read at the last hop. -/
lemma getElem?_traceAmount (hops : List HopResult) :
    ∀ current : U256,
      (current :: hops.map HopResult.amountOut)[hops.length]? = some (traceAmount current hops) := by
  induction hops with
  | nil => intro current; rfl
  | cons hop hops ih =>
      intro current
      rw [traceAmount_cons, ← ih hop.amountOut]
      rfl

theorem simulateRouteDetailed_hopAmountsOk {arena : StateArena} {edges : List Edge}
    {amountIn : U256} {pre : Option ShallowCaps} {r : RouteSimulationResult}
    (h : simulateRouteDetailedWithCaps arena edges amountIn pre = some (some r)) :
    HopAmountsOk arena edges amountIn pre r := by
  by_cases h0 : amountIn = 0
  · rw [simulateRouteDetailedWithCaps] at h
    split at h
    · cases h
    · cases h
      refine ⟨List.length_replicate .., ?_, ?_, fun _ a ha => List.eq_of_mem_replicate ha,
        fun hne => absurd h0 hne⟩
      · rw [h0]
        rfl
      · exact List.getElem?_replicate_of_lt (by omega)
  · rcases simulateRouteDetailed_trace h0 h with ⟨caps, hops, hcaps, htrace, hamounts, hout⟩
    rcases routeTrace_some edges htrace with ⟨hlen, hhop⟩
    refine ⟨?_, ?_, ?_, fun hz => absurd hz h0, fun _ i edge he => ?_⟩
    · rw [hamounts, List.length_cons, List.length_map, hlen]
    · rw [hamounts]
      rfl
    · rw [hamounts, hout, ← hlen, getElem?_traceAmount]
    · rcases hhop i edge he with ⟨cap, hop, a, hcap, hh, ha, hnz, state, realigned, hon⟩
      rw [Nat.zero_add] at hcap
      refine ⟨state, realigned, caps, cap, a, hop.amountOut, hon.pool, hon.realign, hcaps, hcap,
        by rw [hamounts, ha], ?_, ?_, fun ht => ?_⟩
      · rw [hamounts, List.getElem?_cons_succ, List.getElem?_map, hh]
        rfl
      · rw [simulateHopAmountOutWithCap, hon.quote]
        rfl
      · exact simulateHop_ok_execution (hnz h0) (hon.nonzero (hnz h0)) hon.quote ht

/-- What the two simulators are compared on. -/
def RouteSimulationResult.summary (r : RouteSimulationResult) : MinimalSimResult :=
  ⟨r.profit, r.amountOut, r.totalGas⟩

/-- Both simulators succeed on the same inputs with the same amount, profit and gas. -/
lemma simulateRouteDetailed_summary (arena : StateArena) (edges : List Edge) (amountIn : U256)
    (pre : Option ShallowCaps) :
    (simulateRouteDetailedWithCaps arena edges amountIn pre).map
        (·.map RouteSimulationResult.summary) =
      simulateRouteMinimalWithCaps arena edges amountIn pre := by
  rw [simulateRouteDetailedWithCaps, simulateRouteMinimalWithCaps]
  split
  · rfl
  · rename_i hsim
    have hlen := length_le_of_simulatable (by simpa using hsim)
    split
    · rfl
    · rw [walkRouteHops_eq arena hlen, walkRouteHops_amounts_eq arena hlen]
      cases resolveCaps arena edges pre with
      | none => rfl
      | some caps =>
          rw [Option.bind_some, Option.bind_some]
          simp only [Option.map_map]
          congr 1
          funext t
          cases t <;> rfl

/-- Handing the walk the caps of the route changes nothing. -/
lemma resolveCaps_precomputed {arena : StateArena} {edges : List Edge} {pre : Option ShallowCaps}
    (h : precomputeRouteShallowCaps arena edges = some pre) :
    resolveCaps arena edges pre = resolveCaps arena edges none := by
  rw [precomputeRouteShallowCaps] at h
  split at h
  · rename_i hcl
    rcases Option.map_eq_some_iff.1 h with ⟨caps, hcaps, rfl⟩
    rw [resolveCaps, resolveCaps, if_pos hcl, hcaps]
  · rw [← Option.some.inj h]

lemma walkRouteHops_precomputed {arena : StateArena} {edges : List Edge}
    {pre : Option ShallowCaps} (h : precomputeRouteShallowCaps arena edges = some pre)
    (amountIn : U256) (hopAmounts : Option (List U256)) :
    walkRouteHops arena edges amountIn hopAmounts pre =
      walkRouteHops arena edges amountIn hopAmounts none := by
  rw [walkRouteHops, walkRouteHops, resolveCaps_precomputed h]

/-- The minimal and the detailed simulator agree, with and without precomputed caps, and the hop
amounts of a detailed result are the quotes of the realigned edges. -/
theorem simulateRoute_agree (arena : StateArena) (edges : List Edge) (amountIn : U256) :
    (∀ pre, (simulateRouteDetailedWithCaps arena edges amountIn pre).map
        (·.map RouteSimulationResult.summary) =
      simulateRouteMinimalWithCaps arena edges amountIn pre) ∧
    (∀ pre, precomputeRouteShallowCaps arena edges = some pre →
      simulateRouteDetailedWithCaps arena edges amountIn pre =
          simulateRouteDetailed arena edges amountIn ∧
        simulateRouteMinimalWithCaps arena edges amountIn pre =
          simulateRouteMinimal arena edges amountIn) ∧
    ∀ pre r, simulateRouteDetailedWithCaps arena edges amountIn pre = some (some r) →
      HopAmountsOk arena edges amountIn pre r := by
  refine ⟨simulateRouteDetailed_summary arena edges amountIn, fun pre hpre => ⟨?_, ?_⟩,
    fun pre r hr => simulateRouteDetailed_hopAmountsOk hr⟩
  · rw [simulateRouteDetailed, simulateRouteDetailedWithCaps, simulateRouteDetailedWithCaps,
      walkRouteHops_precomputed hpre]
  · rw [simulateRouteMinimal, simulateRouteMinimalWithCaps, simulateRouteMinimalWithCaps,
      walkRouteHops_precomputed hpre]

/-- An arena with tokens 2 and 3 and one pool at address 1. -/
def pairArena (state : PoolState) : StateArena where
  inner :=
    { tokens := [2#160, 3#160]
      tokenDecimals := [18, 18]
      pools := [⟨none, state⟩]
      poolAddresses := [1#160]
      addressToPool := fun a => if a = 1#160 then some 0 else none
      addressToToken := fun a => if a = 2#160 then some 0 else if a = 3#160 then some 1 else none
      layoutFingerprint := 0 }
  hotOverlay := []
  hotRevisions := []

/-- The hop from token 2 to token 3 through the pool, with the given leg indices. -/
def pairEdge (protocol : ProtocolType) (inIdx outIdx : ℕ) : Edge where
  poolIndex := 0
  tokenIn := 0
  tokenOut := 1
  tokenInIdx := inIdx
  tokenOutIdx := outIdx
  protocol := protocol
  feeBps := 30
  zeroForOne := inIdx < outIdx

/-- One hop through a constant-product pool. -/
theorem simulateRoute_agree_pair :
    ∃ r, simulateRouteDetailed (pairArena (.v2 ⟨1000000000000#256, 2000000000000#256, 997#256,
        1000#256, 1⟩)) [pairEdge .uniswapV2 0 1] 1000000#256 = some (some r) ∧
      r.hopAmounts = [1000000#256, 1993998#256] ∧
      HopAmountsOk (pairArena (.v2 ⟨1000000000000#256, 2000000000000#256, 997#256, 1000#256, 1⟩))
        [pairEdge .uniswapV2 0 1] 1000000#256 none r := by
  have hsim : ((simulateRouteDetailed (pairArena (.v2 ⟨1000000000000#256, 2000000000000#256,
      997#256, 1000#256, 1⟩)) [pairEdge .uniswapV2 0 1] 1000000#256).join.any fun r =>
        r.hopAmounts = [1000000#256, 1993998#256]) = true := by decide
  rcases (Option.any_eq_true _ _).1 hsim with ⟨r, hr, hamounts⟩
  have hr' := Option.join_eq_some_iff.1 hr
  exact ⟨r, hr', of_decide_eq_true hamounts, (simulateRoute_agree _ _ _).2.2 none r hr'⟩

/-- A tickless hop is accepted within its cap, but has no execution quote. -/
theorem simulateRouteDetailed_not_execution :
    ¬ ∀ (arena : StateArena) (edges : List Edge) (amountIn : U256) (r : RouteSimulationResult),
      simulateRouteDetailed arena edges amountIn = some (some r) →
      ∀ i edge, edges[i]? = some edge → ∃ state realigned a b,
        arena.poolState edge.poolIndex = some state ∧
          realignMultiTokenEdge arena state edge = some realigned ∧
          r.hopAmounts[i]? = some a ∧ r.hopAmounts[i + 1]? = some b ∧
          simulateHopAmountOutForExecution state realigned a = some (some b) := by
  intro h
  have hsim : ((simulateRouteDetailed (pairArena (.v3 (poolAtPriceOne 0 [])))
      [pairEdge .uniswapV3 0 1] 1000#256).join.any fun r => r.hopAmounts[0]? = some 1000#256) =
        true := by decide
  rcases (Option.any_eq_true _ _).1 hsim with ⟨r, hr, hfirst⟩
  have hfirst := of_decide_eq_true hfirst
  rcases h _ _ _ r (Option.join_eq_some_iff.1 hr) 0 _ rfl with
    ⟨state, realigned, a, b, hpool, hre, ha, -, hexec⟩
  cases hpool
  cases hre
  rw [hfirst] at ha
  cases ha
  have hnone : simulateHopAmountOutForExecution (.v3 (poolAtPriceOne 0 [])) (pairEdge .uniswapV3 0 1)
      1000#256 = some none := by decide
  rw [hnone] at hexec
  cases hexec

end PolygonArb

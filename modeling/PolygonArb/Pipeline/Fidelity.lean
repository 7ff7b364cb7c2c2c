import PolygonArb.Pipeline.RouteTrace

/-!
# Fidelity of the hop amounts

`route_hop_fidelity_reject` re-checks the hop amounts of a walk.  Its fast path trusts the walk; its
slow path quotes every hop again, but from the edges of the route as they are, not as the walk
realigned them.  On a hop whose leg indices are stale the two therefore part.

`hopFidelityReject_verified` and `hopFidelityReject_slow` say what each path makes of one hop of a
trace, and `fidelity_iff` lifts them over the route.
-/

namespace PolygonArb

open Word

variable {arena : StateArena} {state : PoolState} {edge realigned : Edge} {amount cap : U256}
  {hop : HopResult} {i : ℕ}

/-! ## One hop -/

/-- Outside the V2 arm both paths go to the family check. -/
lemma stateFidelityReject_of_not_v2 (verified : Bool) (hopProbe : Run U256)
    (h : ∀ s, state = .v2 s → edge.protocol ≠ .uniswapV2) :
    stateFidelityReject state hopProbe i edge amount verified =
      familyFidelityReject state hopProbe i edge amount verified := by
  unfold stateFidelityReject
  split
  · rename_i s hp
    exact absurd hp (h s rfl)
  · rfl

lemma stateFidelityReject_v2 {s : V2PoolState} (verified : Bool) (hopProbe : Run U256)
    (hp : edge.protocol = .uniswapV2) (h : ¬ v2ReserveIn s edge.zeroForOne ≤ amount) :
    stateFidelityReject (.v2 s) hopProbe i edge amount verified = some none := by
  rw [stateFidelityReject, if_neg h]
  exact hp

/-- Realignment touches the leg indices of multi-token edges only. -/
lemma realign_of_not_multiToken (h : edge.protocol.isMultiToken = false) :
    realignMultiTokenEdge arena state edge = some edge := by
  rw [realignMultiTokenEdge, if_neg (by rw [h]; exact Bool.false_ne_true)]

lemma realign_protocol (h : realignMultiTokenEdge arena state edge = some realigned) :
    realigned.protocol = edge.protocol := by
  rw [realignMultiTokenEdge] at h
  split at h
  · cases hv : vaultTokens state with
    | none =>
        rw [hv] at h
        rw [← Option.some.inj h]
    | some tokens =>
        rw [hv] at h
        simp only [Option.bind_eq_bind, Option.bind_eq_some_iff] at h
        rcases h with ⟨tin, -, tout, -, h⟩
        split at h
        · rw [← Option.some.inj h]
        · rw [Option.bind_eq_some_iff] at h
          rcases h with ⟨⟨inIdx, outIdx⟩, -, h⟩
          dsimp only at h
          split at h
          · rw [← Option.some.inj h]
          · cases h
  · rw [← Option.some.inj h]

/-- A concentrated-liquidity or V2 edge is its own realignment. -/
lemma realign_eq_of_cl (hcl : edge.protocol.isCl = true)
    (h : realignMultiTokenEdge arena state edge = some realigned) : realigned = edge := by
  have hm : edge.protocol.isMultiToken = false := by
    revert hcl
    cases edge.protocol <;> intro hcl <;> first | rfl | cases hcl
  rw [realign_of_not_multiToken hm] at h
  exact (Option.some.inj h).symm

lemma realign_eq_of_v2 (hp : edge.protocol = .uniswapV2)
    (h : realignMultiTokenEdge arena state edge = some realigned) : realigned = edge := by
  rw [realign_of_not_multiToken (by rw [hp]; rfl)] at h
  exact (Option.some.inj h).symm

lemma isCl_of_matches {protocol : ProtocolType}
    (hm : protocolMatchesPoolState protocol state = true) (hcl : protocol.isCl = true) :
    state.isCl = true := by
  cases state <;> cases protocol <;>
    first
    | rfl
    | exact absurd hcl Bool.false_ne_true
    | exact absurd hm Bool.false_ne_true

/-- The fast path accepts every hop of a trace. -/
lemma hopFidelityReject_verified (h0 : amount ≠ 0)
    (hon : HopOnTrace arena edge amount cap hop state realigned) :
    hopFidelityReject arena (some cap) i edge amount true = some none := by
  rw [hopFidelityReject, hon.pool]
  dsimp only
  rw [if_neg (by rw [hon.tradable]; decide)]
  by_cases hv2 : ∃ s, state = .v2 s ∧ edge.protocol = .uniswapV2
  · rcases hv2 with ⟨s, rfl, hp⟩
    have hq := hon.quote
    rw [realign_eq_of_v2 hp hon.realign] at hq
    exact stateFidelityReject_v2 true _ hp (simulateHop_ok_v2 h0 hp hq)
  · rw [stateFidelityReject_of_not_v2 true _ fun s hs hp => hv2 ⟨s, hs, hp⟩, familyFidelityReject]
    split
    · rename_i hcl
      rw [Bool.and_eq_true] at hcl
      have hq := hon.quote
      rw [realign_eq_of_cl hcl.2 hon.realign] at hq
      simp only [Option.bind_eq_bind, Option.bind_some, Bool.or_true, if_true,
        simulateHop_ok_cap h0 hcl.2 hq]
      rfl
    · rw [hopQuoteReject, Bool.true_or, if_pos rfl]

/-- The quote check accepts exactly the hops that quote. -/
lemma hopQuoteReject_eq_none (h0 : amount ≠ 0) :
    hopQuoteReject state edge i false amount = some none ↔
      ∃ out, simulateHopAmountOut state edge amount = some (some out) := by
  rw [hopQuoteReject, if_neg (by simpa using h0), Option.map_eq_some_iff]
  constructor
  · rintro ⟨out, hout, hnone⟩
    cases out with
    | none => cases hnone
    | some out => exact ⟨out, hout⟩
  · rintro ⟨out, hout⟩
    exact ⟨some out, hout, rfl⟩

/-- The depth check accepts a hop of a trace whose pool has loaded ticks. -/
lemma clHopShallowAtAmount_of_ok (h0 : amount ≠ 0) (hcl : edge.protocol.isCl = true)
    (hticks : clHopTickless state = false)
    (h : simulateHop state edge amount cap = some (.ok hop)) :
    clHopShallowAtAmount state edge cap amount = some false := by
  rcases simulateHop_ok_cl h0 hcl hticks h with ⟨r, hr, hsh, hsy, -⟩
  unfold clHopShallowAtAmount
  rw [hticks, simulateHop_ok_cap h0 hcl h, if_neg Bool.false_ne_true, if_neg Bool.false_ne_true]
  have hmap : (clSwapOf state edge amount).map (fun r => r.shallow || r.synthetic) = some false := by
    rw [hr, Option.map_some, hsh, hsy]
    rfl
  cases state with
  | v3 s => exact hmap
  | v4 s => exact hmap
  | _ => cases hr

/-- The slow path accepts a hop of a trace exactly when the edge, as the route has it, still quotes
the amount.  An edge the walk did not have to realign does. -/
lemma hopFidelityReject_slow (h0 : amount ≠ 0)
    (hon : HopOnTrace arena edge amount cap hop state realigned) :
    hopFidelityReject arena (some cap) i edge amount false = some none ↔
      (realigned ≠ edge → ∃ out, simulateHopAmountOut state edge amount = some (some out)) := by
  rw [hopFidelityReject, hon.pool]
  dsimp only
  rw [if_neg (by rw [hon.tradable]; decide)]
  by_cases hv2 : ∃ s, state = .v2 s ∧ edge.protocol = .uniswapV2
  · rcases hv2 with ⟨s, rfl, hp⟩
    have heq := realign_eq_of_v2 hp hon.realign
    have hq := hon.quote
    rw [heq] at hq
    rw [stateFidelityReject_v2 false _ hp (simulateHop_ok_v2 h0 hp hq)]
    exact ⟨fun _ hne => absurd heq hne, fun _ => rfl⟩
  · rw [stateFidelityReject_of_not_v2 false _ fun s hs hp => hv2 ⟨s, hs, hp⟩, familyFidelityReject]
    have hmatch := simulateHop_ok_matches h0 hon.quote
    rw [realign_protocol hon.realign] at hmatch
    cases hcl : edge.protocol.isCl with
    | true =>
        have heq := realign_eq_of_cl hcl hon.realign
        have hq := hon.quote
        rw [heq] at hq
        have hstate := isCl_of_matches hmatch hcl
        have haccept : ∀ b : Bool, clHopTickless state = b →
            familyFidelityReject state (some cap) i edge amount false = some none := by
          intro b hb
          rw [familyFidelityReject, hstate, hcl]
          simp only [Bool.and_self, if_true, Option.bind_eq_bind, Option.bind_some, Bool.or_false]
          cases b with
          | true =>
              rw [hb, if_pos rfl, simulateHop_ok_cap h0 hcl hq]
              rfl
          | false =>
              rw [hb, if_neg Bool.false_ne_true, clHopShallowAtAmount_of_ok h0 hcl hb hq,
                Option.bind_some, if_neg Bool.false_ne_true]
              exact (hopQuoteReject_eq_none h0).2
                ⟨_, simulateHopAmountOut_of_ok h0 hq (by rw [hcl, hb]; rfl)⟩
        have hfinal := haccept _ rfl
        rw [familyFidelityReject, hcl] at hfinal
        exact ⟨fun _ hne => absurd heq hne, fun _ => hfinal⟩
    | false =>
        rw [Bool.and_false, if_neg Bool.false_ne_true, hopQuoteReject_eq_none h0]
        refine ⟨fun h _ => h, fun h => ?_⟩
        by_cases heq : realigned = edge
        · have hq := hon.quote
          rw [heq] at hq
          exact ⟨_, simulateHopAmountOut_of_ok h0 hq (by rw [hcl]; rfl)⟩
        · exact h heq

/-! ## A hop without an amount -/

lemma simulateV3Swap_zero {s : ConcentratedLiquidityPoolState} {z : Bool} {fee : Option ℕ}
    {allowZero : Bool} {r : V3SwapResult} (h : simulateV3Swap s 0 z fee allowZero = some r) :
    r.shallow = false ∧ r.synthetic = false := by
  rw [simulateV3Swap] at h
  simp only [Option.bind_eq_bind, Option.bind_eq_some_iff] at h
  rcases h with ⟨feePips, -, h⟩
  rw [if_pos (.inl trivial)] at h
  rw [← Option.some.inj h]
  exact ⟨rfl, rfl⟩

/-- The pool of a hop is there and tradable, and the fee of a pool with loaded ticks can be read. -/
def HopReady (arena : StateArena) (edge : Edge) : Prop :=
  ∃ state, arena.poolState edge.poolIndex = some state ∧ state.isTradable = true ∧
    (state.isCl = true → edge.protocol.isCl = true → clHopTickless state = false →
      ∃ r, clSwapOf state edge 0 = some r)

lemma clHopShallowAtAmount_zero (edge : Edge) (cap : U256) (hcl : state.isCl = true) (hticks : clHopTickless state = false) :
    clHopShallowAtAmount state edge cap 0 = some false ↔ ∃ r, clSwapOf state edge 0 = some r := by
  unfold clHopShallowAtAmount
  rw [hticks, not_exceeds_zero, if_neg Bool.false_ne_true, if_neg Bool.false_ne_true]
  have key : ∀ s : ConcentratedLiquidityPoolState,
      (simulateV3Swap s 0 edge.zeroForOne (some edge.feeBps) (edge.protocol = .uniswapV4)).map
          (fun r => r.shallow || r.synthetic) = some false ↔
        ∃ r, simulateV3Swap s 0 edge.zeroForOne (some edge.feeBps) (edge.protocol = .uniswapV4) =
          some r := by
    intro s
    rw [Option.map_eq_some_iff]
    constructor
    · rintro ⟨r, hr, -⟩
      exact ⟨r, hr⟩
    · rintro ⟨r, hr⟩
      rcases simulateV3Swap_zero hr with ⟨hsh, hsy⟩
      exact ⟨r, hr, by rw [hsh, hsy]; rfl⟩
  cases state with
  | v3 s => exact key s
  | v4 s => exact key s
  | _ => cases hcl

lemma v2ReserveIn_pos {s : V2PoolState} (h : (PoolState.v2 s).isTradable = true) (z : Bool) :
    ¬ v2ReserveIn s z ≤ 0 := by
  rw [PoolState.isTradable, Bool.and_eq_true] at h
  have h0 : v2MinReserve ≤ s.reserve0 := of_decide_eq_true h.1
  have h1 : v2MinReserve ≤ s.reserve1 := of_decide_eq_true h.2
  have hpos : 0 < v2MinReserve.toNat := by decide
  rw [BitVec.le_def] at h0 h1 ⊢
  rw [v2ReserveIn]
  show ¬ _ ≤ 0
  cases z
  · show ¬ s.reserve1.toNat ≤ 0
    omega
  · show ¬ s.reserve0.toNat ≤ 0
    omega

lemma hopQuoteReject_zero (verified : Bool) :
    hopQuoteReject state edge i verified 0 = some none := by
  rw [hopQuoteReject, if_pos (by simp)]

lemma familyFidelityReject_zero_verified :
    familyFidelityReject state (some cap) i edge 0 true = some none := by
  rw [familyFidelityReject]
  simp only [Option.bind_eq_bind, Option.bind_some, Bool.or_true, if_true, not_exceeds_zero,
    hopQuoteReject_zero]
  exact ite_self _

lemma familyFidelityReject_zero_slow :
    familyFidelityReject state (some cap) i edge 0 false = some none ↔
      (state.isCl = true → edge.protocol.isCl = true → clHopTickless state = false →
        ∃ r, clSwapOf state edge 0 = some r) := by
  rw [familyFidelityReject]
  simp only [Option.bind_eq_bind, Option.bind_some, Bool.or_false, not_exceeds_zero,
    hopQuoteReject_zero]
  split
  · rename_i hcl
    rw [Bool.and_eq_true] at hcl
    split
    · rename_i ht
      exact ⟨fun _ _ _ hf => absurd ht (by rw [hf]; exact Bool.false_ne_true), fun _ => rfl⟩
    · rename_i ht
      have hiff := clHopShallowAtAmount_zero edge cap hcl.1 (by simpa using ht)
      refine ⟨fun h _ _ _ => hiff.1 ?_, fun h => ?_⟩
      · rcases Option.bind_eq_some_iff.1 h with ⟨b, hb, hres⟩
        cases b with
        | true => cases hres
        | false => exact hb
      · rw [hiff.2 (h hcl.1 hcl.2 (by simpa using ht))]
        rfl
  · rename_i hcl
    refine ⟨fun _ hs he => absurd ?_ hcl, fun _ => rfl⟩
    rw [hs, he]
    rfl

/-- Both paths accept a hop with no amount when it is ready; otherwise the slow one does not. -/
lemma hopFidelityReject_zero :
    (hopFidelityReject arena (some cap) i edge 0 false = some none ↔ HopReady arena edge) ∧
      (HopReady arena edge → hopFidelityReject arena (some cap) i edge 0 true = some none) := by
  rw [hopFidelityReject, hopFidelityReject, HopReady]
  cases hpool : arena.poolState edge.poolIndex with
  | none => simp
  | some state =>
      dsimp only
      cases htr : state.isTradable with
      | false =>
          rw [if_pos rfl, if_pos rfl]
          refine ⟨⟨fun h => (by cases h), ?_⟩, ?_⟩ <;>
            · rintro ⟨st, hst, ht, -⟩
              rw [← Option.some.inj hst, htr] at ht
              cases ht
      | true =>
          rw [if_neg (by decide), if_neg (by decide)]
          by_cases hv2 : ∃ s, state = .v2 s ∧ edge.protocol = .uniswapV2
          · rcases hv2 with ⟨s, rfl, hp⟩
            rw [stateFidelityReject_v2 false _ hp (v2ReserveIn_pos htr _),
              stateFidelityReject_v2 true _ hp (v2ReserveIn_pos htr _)]
            exact ⟨⟨fun _ => ⟨_, rfl, htr, fun h => by cases h⟩, fun _ => rfl⟩, fun _ => rfl⟩
          · rw [stateFidelityReject_of_not_v2 false _ fun s hs hp => hv2 ⟨s, hs, hp⟩,
              stateFidelityReject_of_not_v2 true _ fun s hs hp => hv2 ⟨s, hs, hp⟩,
              familyFidelityReject_zero_slow, familyFidelityReject_zero_verified]
            refine ⟨⟨fun h => ⟨state, rfl, htr, h⟩, ?_⟩, fun _ => rfl⟩
            rintro ⟨st, hst, -, h⟩
            rw [Option.some.inj hst]
            exact h

/-! ## The route -/

lemma hopFidelityRejectFrom_eq_none {probes : ShallowCaps} {verified : Bool}
    {hopAmounts : List U256} (edges : List Edge) :
    ∀ i, hopFidelityRejectFrom arena probes verified hopAmounts i edges = some none ↔
      ∀ j edge, edges[j]? = some edge →
        hopFidelityReject arena probes[i + j]? (i + j) edge (hopAmounts[i + j]?.getD 0) verified =
          some none := by
  induction edges with
  | nil => intro i; simp [hopFidelityRejectFrom]
  | cons edge edges ih =>
      intro i
      rw [hopFidelityRejectFrom]
      simp only [Option.bind_eq_bind]
      constructor
      · intro h j e he
        rcases Option.bind_eq_some_iff.1 h with ⟨reject, hrej, hrest⟩
        cases reject with
        | some reject => cases hrest
        | none =>
            cases j with
            | zero =>
                cases he
                exact hrej
            | succ j =>
                have hj := (ih (i + 1)).1 hrest j e he
                rw [show i + (j + 1) = i + 1 + j by omega]
                exact hj
      · intro h
        have hhead := h 0 edge rfl
        rw [Nat.add_zero] at hhead
        rw [hhead, Option.bind_some]
        refine (ih (i + 1)).2 fun j e he => ?_
        rw [show i + 1 + j = i + (j + 1) by omega]
        exact h (j + 1) e he

/-- The caps of a route within the hop cap can always be computed. -/
lemma exists_resolveCaps (arena : StateArena) {edges : List Edge} (hlen : edges.length ≤ hopCap) :
    ∃ caps, resolveCaps arena edges none = some caps := by
  rw [resolveCaps]
  split
  · rw [routeShallowCaps, routeShallowCapsWith]
    have key : ∀ (l : List (Edge × ℕ)), (∀ p ∈ l, p.2 < hopCap) → ∀ caps : ShallowCaps,
        ∃ caps', l.foldlM (fun caps (p : Edge × ℕ) =>
          if p.1.protocol.isCl && edgeTickless arena p.1 then
            if h : p.2 < hopCap then
              some (caps.set p.2 ((reusedCap edges caps p.2 p.1).getD
                (arena.spotProbeForToken p.1.tokenIn)) h)
            else none
          else some caps) caps = some caps' := by
      intro l
      induction l with
      | nil => intro _ caps; exact ⟨caps, rfl⟩
      | cons p l ih =>
          intro hl caps
          have hp := hl p List.mem_cons_self
          have hrest := ih fun q hq => hl q (List.mem_cons_of_mem p hq)
          rw [List.foldlM_cons, Option.bind_eq_bind]
          split
          · exact hrest _
          · exact hrest _
    refine key _ (fun p hp => ?_) _
    have := List.snd_lt_of_mem_zipIdx hp
    omega
  · exact ⟨noCaps, rfl⟩

/-- Both paths of the fidelity check accept the amounts. -/
def FidelityAccepts (arena : StateArena) (edges : List Edge) (hopAmounts : List U256) : Prop :=
  routeHopFidelityReject arena edges hopAmounts = some none ∧
    routeHopFidelityOkAfterWalk arena edges hopAmounts = some true

/-- An edge that the walk realigns still quotes, as it stands, the amount that reaches it. -/
def StaleEdgesQuote (arena : StateArena) (edges : List Edge) (hopAmounts : List U256) : Prop :=
  ∀ (i : ℕ) edge state realigned amount, edges[i]? = some edge →
    arena.poolState edge.poolIndex = some state →
    realignMultiTokenEdge arena state edge = some realigned → realigned ≠ edge →
    hopAmounts[i]? = some amount → amount ≠ 0 →
    ∃ out, simulateHopAmountOut state edge amount = some (some out)

/-- Every multi-token edge already carries the pool's own leg indices. -/
def EdgesAligned (arena : StateArena) (edges : List Edge) : Prop :=
  ∀ edge ∈ edges, ∀ state realigned, arena.poolState edge.poolIndex = some state →
    realignMultiTokenEdge arena state edge = some realigned → realigned = edge

lemma fidelityAccepts_iff_hops {edges : List Edge} {hopAmounts : List U256} {caps : ShallowCaps}
    (hcaps : resolveCaps arena edges none = some caps) :
    FidelityAccepts arena edges hopAmounts ↔
      ∀ j edge, edges[j]? = some edge →
        hopFidelityReject arena caps[j]? j edge (hopAmounts[j]?.getD 0) false = some none ∧
          hopFidelityReject arena caps[j]? j edge (hopAmounts[j]?.getD 0) true = some none := by
  have hslow : routeHopFidelityReject arena edges hopAmounts =
      hopFidelityRejectFrom arena caps false hopAmounts 0 edges := by
    rw [routeHopFidelityReject, routeHopFidelityRejectProfiled, hcaps]
    rfl
  have hfast : routeHopFidelityOkAfterWalk arena edges hopAmounts = some true ↔
      hopFidelityRejectFrom arena caps true hopAmounts 0 edges = some none := by
    rw [routeHopFidelityOkAfterWalk, routeHopFidelityRejectProfiled, hcaps]
    show (hopFidelityRejectFrom arena caps true hopAmounts 0 edges).map Option.isNone = some true ↔ _
    rw [Option.map_eq_some_iff]
    refine ⟨?_, fun h => ⟨none, h, rfl⟩⟩
    rintro ⟨reject, hrej, hnone⟩
    rw [hrej, Option.isNone_iff_eq_none.1 hnone]
  rw [FidelityAccepts, hslow, hfast, hopFidelityRejectFrom_eq_none, hopFidelityRejectFrom_eq_none]
  simp only [Nat.zero_add]
  exact ⟨fun h j e he => ⟨h.1 j e he, h.2 j e he⟩,
    fun h => ⟨fun j e he => (h j e he).1, fun j e he => (h j e he).2⟩⟩

lemma fidelityAccepts_iff_of_zero {edges : List Edge} {hopAmounts : List U256}
    (hlen : edges.length ≤ hopCap) (hzero : ∀ a ∈ hopAmounts, a = 0) :
    FidelityAccepts arena edges hopAmounts ↔ ∀ edge ∈ edges, HopReady arena edge := by
  rcases exists_resolveCaps arena hlen with ⟨caps, hcaps⟩
  rw [fidelityAccepts_iff_hops hcaps]
  have hamount : ∀ j : ℕ, hopAmounts[j]?.getD 0 = 0 := by
    intro j
    cases hj : hopAmounts[j]? with
    | none => rfl
    | some a => exact hzero a (List.mem_of_getElem? hj)
  have hcap : ∀ (j : ℕ) edge, edges[j]? = some edge → ∃ cap, caps[j]? = some cap := by
    intro j edge he
    have hj := (List.getElem?_eq_some_iff.1 he).1
    exact ⟨_, Vector.getElem?_eq_getElem (by omega)⟩
  constructor
  · intro h edge hmem
    rcases List.mem_iff_getElem?.1 hmem with ⟨j, he⟩
    rcases hcap j edge he with ⟨cap, hc⟩
    have hj := (h j edge he).1
    rw [hamount, hc] at hj
    exact hopFidelityReject_zero.1.1 hj
  · intro h j edge he
    rcases hcap j edge he with ⟨cap, hc⟩
    have hready := h edge (List.mem_of_getElem? he)
    rw [hamount, hc]
    exact ⟨hopFidelityReject_zero.1.2 hready, hopFidelityReject_zero.2 hready⟩

lemma fidelityAccepts_iff_of_trace {edges : List Edge} {amountIn : U256} {caps : ShallowCaps}
    {hops : List HopResult} (h0 : amountIn ≠ 0) (hcaps : resolveCaps arena edges none = some caps)
    (htrace : routeTrace arena caps 0 edges amountIn = some (some hops)) :
    FidelityAccepts arena edges (amountIn :: hops.map HopResult.amountOut) ↔
      StaleEdgesQuote arena edges (amountIn :: hops.map HopResult.amountOut) := by
  rcases routeTrace_some edges htrace with ⟨-, hhop⟩
  rw [fidelityAccepts_iff_hops hcaps]
  constructor
  · intro h j edge state realigned amount he hpool hre hne ha hnz
    rcases hhop j edge he with ⟨cap, hop, a, hcap, -, ha', -, st, re, hon⟩
    rw [Nat.zero_add] at hcap
    rw [ha'] at ha
    cases ha
    rw [hon.pool] at hpool
    cases hpool
    rw [hon.realign] at hre
    cases hre
    have hj := (h j edge he).1
    rw [hcap, ha'] at hj
    exact (hopFidelityReject_slow hnz hon).1 hj hne
  · intro h j edge he
    rcases hhop j edge he with ⟨cap, hop, a, hcap, -, ha, hnz, state, realigned, hon⟩
    rw [Nat.zero_add] at hcap
    rw [hcap, ha, Option.getD_some]
    refine ⟨(hopFidelityReject_slow (hnz h0) hon).2 fun hne => ?_,
      hopFidelityReject_verified (hnz h0) hon⟩
    exact h j edge state realigned a he hon.pool hon.realign hne ha (hnz h0)

/-- After a walk both paths accept its amounts exactly when the realigned edges still quote as they
stand and, for a zero input, every pool is ready.  Edges that need no realignment always do. -/
theorem routeHopFidelity_accepts_iff (arena : StateArena) (edges : List Edge) (amountIn : U256)
    (r : RouteSimulationResult) (h : simulateRouteDetailed arena edges amountIn = some (some r)) :
    (FidelityAccepts arena edges r.hopAmounts ↔
      (amountIn = 0 → ∀ edge ∈ edges, HopReady arena edge) ∧
        StaleEdgesQuote arena edges r.hopAmounts) ∧
    (EdgesAligned arena edges → (amountIn = 0 → ∀ edge ∈ edges, HopReady arena edge) →
      FidelityAccepts arena edges r.hopAmounts) := by
  have hiff : FidelityAccepts arena edges r.hopAmounts ↔
      (amountIn = 0 → ∀ edge ∈ edges, HopReady arena edge) ∧
        StaleEdgesQuote arena edges r.hopAmounts := by
    by_cases h0 : amountIn = 0
    · have hzero := (simulateRouteDetailed_hopAmountsOk h).zero h0
      rw [fidelityAccepts_iff_of_zero (length_le_of_detailed h) hzero]
      refine ⟨fun hr => ⟨fun _ => hr, ?_⟩, fun hr => hr.1 h0⟩
      intro i edge state realigned amount _ _ _ _ ha hnz
      exact absurd (hzero amount (List.mem_of_getElem? ha)) hnz
    · rcases simulateRouteDetailed_trace h0 h with ⟨caps, hops, hcaps, htrace, hamounts, -⟩
      rw [hamounts, fidelityAccepts_iff_of_trace h0 hcaps htrace]
      exact ⟨fun hs => ⟨fun hz => absurd hz h0, hs⟩, fun hs => hs.2⟩
  refine ⟨hiff, fun halign hready => hiff.2 ⟨hready, ?_⟩⟩
  intro i edge state realigned amount he hpool hre hne _ _
  exact absurd (halign edge (List.mem_of_getElem? he) state realigned hpool hre) hne

/-! ### A stale WooFi edge -/

/-- A WooFi pool with base token 3 and quote token 2. -/
def quoteSecondWoofi : WoofiPoolState where
  tokens := [3#160, 2#160]
  quoteReserve := 1000000000000#256
  baseStates :=
    [{ price := 100000000#256
       spread := 0#256
       coeff := 0#256
       reserve := 1000000000000000000000000#256
       baseDec := 1000000000000000000#256
       quoteDec := 1000000#256
       priceDec := 100000000#256
       feeRate := 25#256
       maxGamma := 1000000000000000000#256
       maxNotionalSwap := 1000000000000#256 }]
  fee := 0#256

/-- With the pool's own indices both paths accept. -/
theorem routeHopFidelity_accepts_aligned :
    ∃ r, simulateRouteDetailed (pairArena (.woofi quoteSecondWoofi)) [pairEdge .woofi 1 0]
        1000000#256 = some (some r) ∧
      FidelityAccepts (pairArena (.woofi quoteSecondWoofi)) [pairEdge .woofi 1 0] r.hopAmounts := by
  have hsim : (simulateRouteDetailed (pairArena (.woofi quoteSecondWoofi)) [pairEdge .woofi 1 0]
      1000000#256).join.isSome = true := by decide
  rcases Option.isSome_iff_exists.1 hsim with ⟨r, hr⟩
  have hr' := Option.join_eq_some_iff.1 hr
  refine ⟨r, hr', (routeHopFidelity_accepts_iff _ _ _ r hr').2 ?_ fun h0 => absurd h0 (by decide)⟩
  intro edge hmem state realigned hpool hre
  rw [List.mem_singleton.1 hmem] at hpool hre ⊢
  cases hpool
  exact (Option.some.inj hre).symm

/-- With the indices of the discovery order the walk realigns the edge and succeeds, and the slow
path rejects what it walked. -/
theorem routeHopFidelity_slow_rejects :
    ¬ ∀ (arena : StateArena) (edges : List Edge) (amountIn : U256) (r : RouteSimulationResult),
      simulateRouteDetailed arena edges amountIn = some (some r) →
        FidelityAccepts arena edges r.hopAmounts := by
  intro h
  have hsim : ((simulateRouteDetailed (pairArena (.woofi quoteSecondWoofi)) [pairEdge .woofi 0 1]
      1000000#256).join.any fun r =>
        routeHopFidelityReject (pairArena (.woofi quoteSecondWoofi)) [pairEdge .woofi 0 1]
          r.hopAmounts = some (some (.poolLocked 0))) = true := by decide
  rcases (Option.any_eq_true _ _).1 hsim with ⟨r, hr, hrej⟩
  have haccept := h _ _ _ r (Option.join_eq_some_iff.1 hr)
  rw [FidelityAccepts, of_decide_eq_true hrej] at haccept
  cases haccept.1

end PolygonArb

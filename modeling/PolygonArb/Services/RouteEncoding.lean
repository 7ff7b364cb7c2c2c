import PolygonArb.Pipeline.Fidelity
import PolygonArb.Services.Calldata

/-!
# What the encoders return

One lemma per encoder of `Calldata.lean`: which calls it returns, with which amounts.  `HopCalls`
lists the call shapes of the protocols other than V2 and `encodeStep_v2`, `encodeStep_other` say what
one turn of the loop leaves behind.  The route-level results are read off these two.
-/

namespace PolygonArb

open Word

/-! ## Encoders that return -/

namespace Encode

variable {α β : Type}

/-- The encoder returns `a`: no abort, no refusal. -/
def Returns (x : Encode α) (a : α) : Prop := x.run = some (.ok a)

@[simp] lemma returns_pure {a b : α} : Returns (pure a) b ↔ a = b := by
  simp [Returns, ExceptT.run_pure]

@[simp] lemma returns_throw {e : String} {a : α} : ¬ Returns (throw e : Encode α) a := by
  simp [Returns]

lemma returns_bind {x : Encode α} {f : α → Encode β} {b : β} :
    Returns (x >>= f) b ↔ ∃ a, Returns x a ∧ Returns (f a) b := by
  unfold Returns
  rw [ExceptT.run_bind]
  constructor
  · intro h
    rcases Option.bind_eq_some_iff.mp h with ⟨r, hr, hf⟩
    cases r with
    | error e => simp at hf
    | ok a => exact ⟨a, hr, hf⟩
  · rintro ⟨a, ha, hf⟩
    exact Option.bind_eq_some_iff.mpr ⟨.ok a, ha, hf⟩

@[simp] lemma returns_orBail {x : Option α} {e : String} {a : α} :
    Returns (orBail x e) a ↔ x = some a := by
  cases x with
  | none => simp [orBail]
  | some b => simp [orBail]

@[simp] lemma returns_lift {x : Run α} {a : α} : Returns (ExceptT.lift x) a ↔ x = some a := by
  unfold Returns
  rw [ExceptT.run_lift]
  simp

/-- A guard that refuses. -/
@[simp] lemma returns_guard {p : Prop} [Decidable p] {e : String} {x : Encode α} {a : α} :
    Returns (if p then throw e else x) a ↔ ¬ p ∧ Returns x a := by
  by_cases h : p <;> simp [h]

end Encode

open Encode

/-! ## Slippage -/

lemma saturatingAdd64_ge (a b : BitVec 64) : a.toNat ≤ (saturatingAdd64 a b).toNat := by
  unfold saturatingAdd64
  split_ifs with h
  · rw [BitVec.toNat_add, Nat.mod_eq_of_lt h]
    omega
  · rw [BitVec.toNat_allOnes]
    have := a.isLt
    omega

lemma slippageAdjusted_eq_some {out m : U256} {bps : BitVec 64}
    (h : slippageAdjusted out bps = some m) :
    m ≠ 0 ∧ bps.toNat < 10000 ∧ m.toNat = out.toNat * (10000 - bps.toNat) / 10000 := by
  unfold slippageAdjusted at h
  split_ifs at h with hguard
  rcases Option.bind_eq_some_iff.mp h with ⟨product, hproduct, hdiv⟩
  have hbps : bps.toNat < 10000 := by
    by_contra hge
    refine hguard (.inr ?_)
    rw [BitVec.le_def]
    simpa using hge
  simp only at hdiv
  split_ifs at hdiv with hzero
  obtain rfl := Option.some.inj hdiv
  refine ⟨hzero, hbps, ?_⟩
  have hscale : bpsScale.toNat = 10000 := by decide
  have hwide : (bps.setWidth 256).toNat = bps.toNat := toNat_widen (by omega) bps
  have hfactor : (bpsScale - bps.setWidth 256).toNat = 10000 - bps.toNat := by
    rw [toNat_sub_of_le (by omega), hscale, hwide]
  have hp := checkedMul_eq_some.mp hproduct
  rw [BitVec.toNat_udiv, hp, hfactor, hscale]

/-- More slippage, less out. -/
lemma slippageAdjusted_anti {out m m' : U256} {bps bps' : BitVec 64} (hle : bps.toNat ≤ bps'.toNat)
    (h : slippageAdjusted out bps = some m) (h' : slippageAdjusted out bps' = some m') :
    m' ≤ m := by
  rcases slippageAdjusted_eq_some h with ⟨-, -, hm⟩
  rcases slippageAdjusted_eq_some h' with ⟨-, -, hm'⟩
  rw [le_iff, hm, hm']
  exact Nat.div_le_div_right (Nat.mul_le_mul_left _ (by omega))

/-! ## One encoder at a time -/

section Encoders

variable {arena : StateArena} {hop : CalldataHop} {executor recipient : Address}
  {bps : BitVec 64} {label : String} {calls : List RouteCall}

/-- A fresh minimum is the slippage-adjusted execution quote; the hop's own caps it. -/
lemma tightMinOut_returns {m : U256} (h : Returns (tightMinOut arena hop bps label) m) :
    ∃ quoted minOut, quoteHopForExecution arena hop = some (some quoted) ∧
      slippageAdjusted quoted (hopSlippageBps bps) = some minOut ∧
      m = if hop.amountOut = 0 then minOut else min hop.amountOut minOut := by
  simp only [tightMinOut, computeMinOut, computeQuotedOut, returns_bind, returns_lift,
    returns_orBail, returns_pure] at h
  rcases h with ⟨minOut, ⟨quoted, ⟨quote, hquote, hfilter⟩, hmin⟩, rfl⟩
  rcases Option.filter_eq_some_iff.mp hfilter with ⟨rfl, -⟩
  exact ⟨quoted, minOut, hquote, hmin, rfl⟩

lemma encodeV2Hop_returns {swapTo : Address} {prefund : V2Prefund} {r : List RouteCall × U256}
    (h : Returns (encodeV2Hop arena hop swapTo executor bps prefund) r) :
    r.1 = prefundCalls executor hop prefund ++
      [execCall hop.poolAddress (v2SwapData hop r.2 swapTo)] := by
  unfold encodeV2Hop at h
  rcases returns_bind.mp (returns_guard.mp h).2 with ⟨out, -, hout⟩
  obtain rfl := returns_pure.mp (returns_guard.mp hout).2
  rfl

/-- The calls of a hop on a protocol other than V2.  The first argument is the minimum the last call
guarantees, when it carries one. -/
inductive HopCalls (executor : Address) (hop : CalldataHop) (recipient : Address) :
    Option U256 → List RouteCall → Prop
  | v3 {limit protocolId token0 token1 feePips} (hproto : hop.edge.protocol = .uniswapV3) :
      HopCalls executor hop recipient none
        [execCall hop.poolAddress (.v3Swap recipient hop.edge.zeroForOne hop.amountIn.toNat limit
          protocolId token0 token1 feePips)]
  | v4 {key zeroForOne limit} (hproto : hop.edge.protocol = .uniswapV4) :
      HopCalls executor hop recipient none
        [encodeApproveIfNeeded hop.tokenIn uniswapV4PoolManager hop.amountIn,
          execCall uniswapV4PoolManager (.v4Unlock key zeroForOne (-hop.amountIn.toNat) limit)]
  | curveNg {i j m} (hproto : hop.edge.protocol = .curveStable ∨ hop.edge.protocol = .curveCrypto)
      (hng : curveUsesReceiver hop.poolType = true) :
      HopCalls executor hop recipient (some m)
        [encodeApproveIfNeeded hop.tokenIn hop.poolAddress hop.amountIn,
          execCall hop.poolAddress (.curveNgExchange i j hop.amountIn m recipient)]
  | curveCrypto {i j m} (hproto : hop.edge.protocol = .curveCrypto)
      (hng : curveUsesReceiver hop.poolType = false) :
      HopCalls executor hop recipient (some m)
        [encodeApproveIfNeeded hop.tokenIn hop.poolAddress hop.amountIn,
          execCall hop.poolAddress (.curveCryptoExchange i j hop.amountIn m)]
  | curveStable {i j m} (hproto : hop.edge.protocol = .curveStable)
      (hng : curveUsesReceiver hop.poolType = false) :
      HopCalls executor hop recipient (some m)
        [encodeApproveIfNeeded hop.tokenIn hop.poolAddress hop.amountIn,
          execCall hop.poolAddress (.curveStableExchange i j hop.amountIn m)]
  | balancer {poolId m deadline} (hproto : hop.edge.protocol = .balancerV2) :
      HopCalls executor hop recipient (some m)
        [encodeApproveIfNeeded hop.tokenIn balancerVault hop.amountIn,
          execCall balancerVault (.balancerSwap poolId hop.tokenIn hop.tokenOut hop.amountIn
            executor recipient m deadline)]
  | dodo {useTransferAll sellBase} (hproto : hop.edge.protocol = .dodo) :
      HopCalls executor hop recipient none
        [encodeTokenTransfer executor hop.tokenIn hop.poolAddress hop.amountIn useTransferAll,
          execCall hop.poolAddress
            (if sellBase = true then .dodoSellBase recipient else .dodoSellQuote recipient)]
  | woofi {m} (hproto : hop.edge.protocol = .woofi) :
      HopCalls executor hop recipient (some m)
        [encodeApproveIfNeeded hop.tokenIn (resolveWoofiRouter hop) hop.amountIn,
          execCall (resolveWoofiRouter hop)
            (.woofiSwap hop.tokenIn hop.tokenOut hop.amountIn m recipient 0)]

lemma i256OfU256_eq_some {v : U256} {z : ℤ} (h : i256OfU256 v = some z) : z = v.toNat := by
  unfold i256OfU256 at h
  split_ifs at h
  exact (Option.some.inj h).symm

lemma encodeV3Hop_returns {fullRange : Bool} {prequoted : Option U256}
    (hproto : hop.edge.protocol = .uniswapV3)
    (h : Returns (encodeV3Hop arena hop recipient bps fullRange prequoted) calls) :
    HopCalls executor hop recipient none calls := by
  unfold encodeV3Hop at h
  rcases returns_bind.mp h with ⟨limit, -, h⟩
  rcases returns_bind.mp (returns_guard.mp h).2 with ⟨amountSpec, hamount, h⟩
  obtain rfl := i256OfU256_eq_some (returns_orBail.mp hamount)
  obtain rfl := returns_pure.mp (returns_guard.mp h).2
  exact .v3 hproto

lemma encodeV4Hop_returns {fullRange : Bool} {prequoted : Option U256}
    (hproto : hop.edge.protocol = .uniswapV4)
    (h : Returns (encodeV4Hop arena hop bps fullRange prequoted) calls) :
    HopCalls executor hop recipient none calls := by
  unfold encodeV4Hop at h
  have h := (returns_guard.mp (returns_guard.mp h).2).2
  rcases returns_bind.mp h with ⟨limit, -, h⟩
  rcases returns_bind.mp h with ⟨key, -, h⟩
  rcases returns_bind.mp h with ⟨amountPos, hamount, h⟩
  obtain rfl := i256OfU256_eq_some (returns_orBail.mp hamount)
  obtain rfl := returns_pure.mp h
  exact .v4 hproto

lemma encodeCurveHop_returns
    (hproto : hop.edge.protocol = .curveStable ∨ hop.edge.protocol = .curveCrypto)
    (h : Returns (encodeCurveHop arena hop recipient bps) calls) :
    ∃ m, Returns (tightMinOut arena hop bps "curve") m ∧
      HopCalls executor hop recipient (some m) calls := by
  unfold encodeCurveHop at h
  rcases returns_bind.mp (returns_guard.mp h).2 with ⟨m, hm, h⟩
  obtain rfl := returns_pure.mp h
  refine ⟨m, hm, ?_⟩
  by_cases hng : curveUsesReceiver hop.poolType = true
  · rw [if_pos hng]
    exact .curveNg hproto hng
  · rw [if_neg hng]
    rw [Bool.not_eq_true] at hng
    rcases hproto with hstable | hcrypto
    · rw [if_neg (by rw [hstable]; decide)]
      exact .curveStable hstable hng
    · rw [if_pos hcrypto]
      exact .curveCrypto hcrypto hng

lemma encodeBalancerHop_returns {deadline : U256} (hproto : hop.edge.protocol = .balancerV2)
    (h : Returns (encodeBalancerHop arena hop recipient executor bps deadline) calls) :
    ∃ m, Returns (tightMinOut arena hop bps "balancer") m ∧
      HopCalls executor hop recipient (some m) calls := by
  unfold encodeBalancerHop at h
  rcases returns_bind.mp h with ⟨poolId, -, h⟩
  rcases returns_bind.mp h with ⟨m, hm, h⟩
  obtain rfl := returns_pure.mp h
  exact ⟨m, hm, .balancer hproto⟩

lemma encodeDodoHop_returns {useTransferAll : Bool} (hproto : hop.edge.protocol = .dodo)
    (h : Returns (encodeDodoHop arena hop recipient executor useTransferAll) calls) :
    HopCalls executor hop recipient none calls := by
  unfold encodeDodoHop at h
  rcases returns_bind.mp h with ⟨sellBase, -, h⟩
  obtain rfl := returns_pure.mp h
  exact .dodo hproto

lemma encodeWoofiHop_returns (hproto : hop.edge.protocol = .woofi)
    (h : Returns (encodeWoofiHop arena hop recipient bps) calls) :
    ∃ m, Returns (tightMinOut arena hop bps "woofi") m ∧
      HopCalls executor hop recipient (some m) calls := by
  unfold encodeWoofiHop at h
  rcases returns_bind.mp h with ⟨m, hm, h⟩
  obtain rfl := returns_pure.mp h
  exact ⟨m, hm, .woofi hproto⟩

/-- The dispatch returns calls of the hop's protocol, with its tight minimum where it has one. -/
lemma encodeHopForProtocol_returns {config : RouteEncodeConfig} {isFirst isLast : Bool}
    {prequoted : Option U256} (hv2 : hop.edge.protocol ≠ .uniswapV2)
    (h : Returns (encodeHopForProtocol arena hop recipient executor config isFirst isLast prequoted)
      calls) :
    ∃ g, HopCalls executor hop recipient g calls ∧
      ∀ m, g = some m → ∃ label, Returns (tightMinOut arena hop config.slippageBps label) m := by
  have hnone : ∀ m : U256, (none : Option U256) = some m →
      ∃ label, Returns (tightMinOut arena hop config.slippageBps label) m := by
    intro m hm
    cases hm
  have hsome : ∀ {m : U256} {label : String},
      Returns (tightMinOut arena hop config.slippageBps label) m →
      ∀ m', some m = some m' → ∃ label, Returns (tightMinOut arena hop config.slippageBps label) m' := by
    rintro m label hm m' ⟨⟩
    exact ⟨label, hm⟩
  unfold encodeHopForProtocol at h
  cases hproto : hop.edge.protocol with
  | uniswapV2 => exact absurd hproto hv2
  | uniswapV3 =>
      rw [hproto] at h
      exact ⟨none, encodeV3Hop_returns hproto h, hnone⟩
  | uniswapV4 =>
      rw [hproto] at h
      exact ⟨none, encodeV4Hop_returns hproto h, hnone⟩
  | balancerV2 =>
      rw [hproto] at h
      rcases encodeBalancerHop_returns hproto h with ⟨m, hm, hcalls⟩
      exact ⟨some m, hcalls, hsome hm⟩
  | curveStable =>
      rw [hproto] at h
      rcases encodeCurveHop_returns (.inl hproto) h with ⟨m, hm, hcalls⟩
      exact ⟨some m, hcalls, hsome hm⟩
  | curveCrypto =>
      rw [hproto] at h
      rcases encodeCurveHop_returns (.inr hproto) h with ⟨m, hm, hcalls⟩
      exact ⟨some m, hcalls, hsome hm⟩
  | dodo =>
      rw [hproto] at h
      exact ⟨none, encodeDodoHop_returns hproto h, hnone⟩
  | woofi =>
      rw [hproto] at h
      rcases encodeWoofiHop_returns hproto h with ⟨m, hm, hcalls⟩
      exact ⟨some m, hcalls, hsome hm⟩

end Encoders

/-! ## One turn of the loop -/

@[simp] lemma edge_applyChainIn (hop : CalldataHop) (chainIn : Option U256) :
    (applyChainIn hop chainIn).edge = hop.edge := by cases chainIn <;> rfl

@[simp] lemma poolAddress_applyChainIn (hop : CalldataHop) (chainIn : Option U256) :
    (applyChainIn hop chainIn).poolAddress = hop.poolAddress := by cases chainIn <;> rfl

@[simp] lemma tokenIn_applyChainIn (hop : CalldataHop) (chainIn : Option U256) :
    (applyChainIn hop chainIn).tokenIn = hop.tokenIn := by cases chainIn <;> rfl

@[simp] lemma tokenOut_applyChainIn (hop : CalldataHop) (chainIn : Option U256) :
    (applyChainIn hop chainIn).tokenOut = hop.tokenOut := by cases chainIn <;> rfl

section Loop

variable {arena : StateArena} {executor : Address} {config : RouteEncodeConfig} {isFirst : Bool}
  {chainIn : Option U256} {fundsAt : Option Address} {hop : CalldataHop}
  {next : Option CalldataHop} {e : EncodedHop}

/-- A V2 hop: one swap, prefunded unless the pair is paid, and its exact output chained on. -/
structure V2Step (executor : Address) (isFirst : Bool) (chainIn : Option U256)
    (fundsAt : Option Address) (hop : CalldataHop) (next : Option CalldataHop) (e : EncodedHop) :
    Prop where
  hop_eq : e.hop = applyChainIn hop chainIn
  fundsAt_eq : e.fundsAt = outputTo executor next
  calls_eq : ∃ out, e.chainIn = some out ∧
    e.calls = prefundCalls executor e.hop (v2PrefundOf isFirst fundsAt e.hop) ++
      [execCall e.hop.poolAddress (v2SwapData e.hop out e.fundsAt)]

lemma encodeStep_v2 (hv2 : hop.edge.protocol = .uniswapV2)
    (h : Returns (encodeStep arena executor config isFirst chainIn fundsAt hop next) e) :
    V2Step executor isFirst chainIn fundsAt hop next e := by
  simp only [encodeStep, edge_applyChainIn, if_pos hv2] at h
  unfold encodeV2Step at h
  rcases returns_bind.mp h with ⟨r, hr, h⟩
  obtain rfl := returns_pure.mp h
  exact ⟨rfl, rfl, r.2, rfl, encodeV2Hop_returns hr⟩

/-- Any other hop: its minimum is the slippage-adjusted quote of the chained amount, its calls carry
that minimum where they carry one, and what it chains on is the quote after the wider haircut. -/
structure OtherStep (arena : StateArena) (executor : Address) (config : RouteEncodeConfig)
    (chainIn : Option U256) (hop : CalldataHop) (next : Option CalldataHop) (e : EncodedHop)
    (quoted minOut : U256) : Prop where
  quote_eq : quoteHopForExecution arena e.hop = some (some quoted)
  minOut_eq : slippageAdjusted quoted (hopSlippageBps config.slippageBps) = some minOut
  hop_eq : e.hop = (applyChainIn hop chainIn).withAmountOut minOut
  fundsAt_eq : e.fundsAt = otherRecipient executor e.hop next
  calls_shape : ∃ g, HopCalls executor e.hop e.fundsAt g e.calls ∧ ∀ m, g = some m → m = minOut
  chainIn_eq : ∀ n, next = some n → ∃ chained, e.chainIn = some chained ∧
    slippageAdjusted quoted
      (saturatingAdd64 (hopSlippageBps config.slippageBps) executionChainInBufferBps) =
        some chained

lemma encodeStep_other (hv2 : hop.edge.protocol ≠ .uniswapV2)
    (h : Returns (encodeStep arena executor config isFirst chainIn fundsAt hop next) e) :
    ∃ quoted minOut, OtherStep arena executor config chainIn hop next e quoted minOut := by
  simp only [encodeStep, edge_applyChainIn, if_neg hv2] at h
  unfold encodeOtherStep at h
  rcases returns_bind.mp h with ⟨quote, hquote, h1⟩
  rcases returns_bind.mp h1 with ⟨quoted, hquoted, h2⟩
  rcases returns_bind.mp h2 with ⟨minOut, hmin, h3⟩
  rcases returns_bind.mp h3 with ⟨calls, hcalls, hlast⟩
  rw [returns_lift] at hquote
  rw [returns_orBail] at hquoted hmin
  subst hquoted
  have hproto : ((applyChainIn hop chainIn).withAmountOut minOut).edge.protocol ≠ .uniswapV2 := by
    simpa [CalldataHop.withAmountOut] using hv2
  have hshape : ∃ g, HopCalls executor ((applyChainIn hop chainIn).withAmountOut minOut)
      (otherRecipient executor ((applyChainIn hop chainIn).withAmountOut minOut) next) g calls ∧
      ∀ m, g = some m → m = minOut := by
    rcases encodeHopForProtocol_returns hproto hcalls with ⟨g, hg, htight⟩
    refine ⟨g, hg, ?_⟩
    intro m hm
    rcases htight m hm with ⟨label, hlabel⟩
    -- the encoder quotes the hop again, with the same amount in, and comes to the same minimum
    rcases tightMinOut_returns hlabel with ⟨quoted', minOut', hquote', hmin', rfl⟩
    have hq : some quoted' = some quoted := Option.some.inj (hquote'.symm.trans hquote)
    obtain rfl := Option.some.inj hq
    obtain rfl := Option.some.inj (hmin'.symm.trans hmin)
    rcases slippageAdjusted_eq_some hmin with ⟨hne, -, -⟩
    rw [CalldataHop.withAmountOut, if_neg hne, ← BitVec.toNat_inj]
    simp
  cases next with
  | none =>
      obtain rfl := returns_pure.mp hlast
      refine ⟨quoted, minOut, hquote, hmin, rfl, rfl, hshape, ?_⟩
      intro n hn
      cases hn
  | some n =>
      rcases returns_bind.mp hlast with ⟨chained, hchained, hend⟩
      obtain rfl := returns_pure.mp hend
      refine ⟨quoted, minOut, hquote, hmin, rfl, rfl, hshape, ?_⟩
      intro _ _
      exact ⟨chained, rfl, returns_orBail.mp hchained⟩

lemma encodeHops_cons {rest : List CalldataHop} {es : List EncodedHop}
    (h : Returns (encodeHops arena executor config isFirst chainIn fundsAt (hop :: rest)) es) :
    ∃ e others, es = e :: others ∧
      Returns (encodeStep arena executor config isFirst chainIn fundsAt hop rest.head?) e ∧
      Returns (encodeHops arena executor config false e.chainIn (some e.fundsAt) rest) others := by
  rw [encodeHops] at h
  rcases returns_bind.mp h with ⟨e, he, h⟩
  rcases returns_bind.mp h with ⟨others, hothers, h⟩
  obtain rfl := returns_pure.mp h
  exact ⟨e, others, rfl, he, hothers⟩

end Loop

/-! ## The route -/

/-- An encoded route is one batch, or the calls of the hops one after the other. -/
lemma encodeRoute_returns {arena : StateArena} {hops : List CalldataHop} {executor : Address}
    {config : RouteEncodeConfig} {flashSource : FlashLoanSource} {calls : List RouteCall}
    (h : Returns (encodeRoute arena hops executor config flashSource) calls) :
    (isBatchRoute hops flashSource = true ∧
      Returns (encodeBalancerBatchRoute hops executor config.deadline) calls) ∨
    (isBatchRoute hops flashSource = false ∧
      ∃ es, Returns (encodeHops arena executor config true none none hops) es ∧
        calls = es.flatMap EncodedHop.calls) := by
  unfold encodeRoute at h
  rcases returns_bind.mp (returns_guard.mp h).2 with ⟨u, -, h⟩
  by_cases hbatch : isBatchRoute hops flashSource = true
  · rw [if_pos hbatch] at h
    exact .inl ⟨hbatch, h⟩
  · rw [if_neg hbatch] at h
    rcases returns_bind.mp h with ⟨es, hes, h⟩
    exact .inr ⟨by simpa using hbatch, es, hes, (returns_pure.mp h).symm⟩

/-! ## The call budget -/

lemma HopCalls.length_eq {executor recipient : Address} {hop : CalldataHop} {g : Option U256}
    {calls : List RouteCall} (h : HopCalls executor hop recipient g calls) :
    calls.length = estimateHopCalls hop.edge.protocol := by
  cases h with
  | v3 hproto => rw [hproto]; rfl
  | v4 hproto => rw [hproto]; rfl
  | curveNg hproto _ => rcases hproto with hproto | hproto <;> rw [hproto] <;> rfl
  | curveCrypto hproto _ => rw [hproto]; rfl
  | curveStable hproto _ => rw [hproto]; rfl
  | balancer hproto => rw [hproto]; rfl
  | dodo hproto => rw [hproto]; rfl
  | woofi hproto => rw [hproto]; rfl

lemma one_le_estimateHopCalls (protocol : ProtocolType) : 1 ≤ estimateHopCalls protocol := by
  cases protocol <;> decide

lemma length_prefundCalls_le (executor : Address) (hop : CalldataHop) (prefund : V2Prefund) :
    (prefundCalls executor hop prefund).length ≤ 1 := by
  cases prefund <;> simp [prefundCalls]

section Budget

variable {arena : StateArena} {executor : Address} {config : RouteEncodeConfig}

/-- The loop stays within the estimate.  After a V2 hop the funds are on the pair of a V2 hop that
follows, which is why the estimate can leave its prefund out. -/
lemma length_encodeHops_le {hops : List CalldataHop} :
    ∀ {isFirst : Bool} {chainIn : Option U256} {fundsAt : Option Address} {previousV2 : Bool}
      {es : List EncodedHop},
      (previousV2 = true → ∀ pair, nextV2Pair hops.head? = some pair → fundsAt = some pair) →
      Returns (encodeHops arena executor config isFirst chainIn fundsAt hops) es →
      (es.flatMap EncodedHop.calls).length ≤
        estimateRouteCallsFrom previousV2 (hops.map CalldataHop.edge) := by
  induction hops with
  | nil =>
      intro isFirst chainIn fundsAt previousV2 es _ h
      obtain rfl := returns_pure.mp h
      exact Nat.zero_le _
  | cons hop rest ih =>
      intro isFirst chainIn fundsAt previousV2 es hfunds h
      rcases encodeHops_cons h with ⟨e, others, rfl, hstep, htail⟩
      rw [List.flatMap_cons, List.length_append, List.map_cons, estimateRouteCallsFrom]
      by_cases hv2 : hop.edge.protocol = .uniswapV2
      · rw [if_pos hv2]
        have hspec := encodeStep_v2 hv2 hstep
        rcases hspec.calls_eq with ⟨out, -, hcalls⟩
        have hrest : (others.flatMap EncodedHop.calls).length ≤
            estimateRouteCallsFrom true (rest.map CalldataHop.edge) := by
          refine ih ?_ htail
          intro _ pair hpair
          rw [hspec.fundsAt_eq, outputTo, hpair]
          rfl
        have hlen : e.calls.length ≤ 1 + (if previousV2 then 0 else 1) := by
          rw [hcalls, List.length_append]
          cases previousV2 with
          | false =>
              have := length_prefundCalls_le executor e.hop (v2PrefundOf isFirst fundsAt e.hop)
              simp only [List.length_singleton, Bool.false_eq_true, if_false]
              omega
          | true =>
              have hpaid : fundsAt = some e.hop.poolAddress := by
                refine hfunds rfl _ ?_
                rw [hspec.hop_eq, poolAddress_applyChainIn]
                simp [nextV2Pair, hv2]
              rw [v2PrefundOf, if_pos hpaid]
              exact le_rfl
        omega
      · rw [if_neg hv2]
        rcases encodeStep_other hv2 hstep with ⟨quoted, minOut, hspec⟩
        rcases hspec.calls_shape with ⟨g, hshape, -⟩
        have hlen := hshape.length_eq
        have hedge : e.hop.edge = hop.edge := by
          rw [hspec.hop_eq]
          exact edge_applyChainIn hop chainIn
        have hrest : (others.flatMap EncodedHop.calls).length ≤
            estimateRouteCallsFrom false (rest.map CalldataHop.edge) :=
          ih (by simp) htail
        rw [hedge] at hlen
        omega

lemma calls_ne_nil_of_encodeStep {isFirst : Bool} {chainIn : Option U256}
    {fundsAt : Option Address} {hop : CalldataHop} {next : Option CalldataHop} {e : EncodedHop}
    (h : Returns (encodeStep arena executor config isFirst chainIn fundsAt hop next) e) :
    e.calls ≠ [] := by
  by_cases hv2 : hop.edge.protocol = .uniswapV2
  · rcases (encodeStep_v2 hv2 h).calls_eq with ⟨out, -, hcalls⟩
    rw [hcalls]
    simp
  · rcases encodeStep_other hv2 h with ⟨quoted, minOut, hspec⟩
    rcases hspec.calls_shape with ⟨g, hshape, -⟩
    have hlen := hshape.length_eq
    have hone := one_le_estimateHopCalls e.hop.edge.protocol
    rw [← List.length_pos_iff]
    omega

lemma length_encodeBalancerBatchRoute {hops : List CalldataHop} {deadline : U256}
    {calls : List RouteCall} (h : Returns (encodeBalancerBatchRoute hops executor deadline) calls) :
    calls.length = 1 := by
  unfold encodeBalancerBatchRoute at h
  rcases returns_bind.mp (returns_guard.mp h).2 with ⟨steps, -, h⟩
  obtain rfl := returns_pure.mp h
  rfl

/-- The estimate of a route that is not empty counts at least one call. -/
lemma one_le_estimateRouteCalls {edges : List Edge} (h : edges ≠ []) :
    1 ≤ estimateRouteCalls edges := by
  rcases List.exists_cons_of_ne_nil h with ⟨edge, rest, rfl⟩
  have hone := one_le_estimateHopCalls edge.protocol
  rw [estimateRouteCalls, estimateRouteCallsFrom]
  split
  · omega
  · omega

/-- A pure Balancer route that is short enough to batch also fits when it is not batched. -/
lemma estimateRouteCalls_le_of_batchEligible {edges : List Edge}
    (h : balancerDirectBatchEligible edges = true) : estimateRouteCalls edges ≤ maxExecutorCalls := by
  simp only [balancerDirectBatchEligible, Bool.and_eq_true, decide_eq_true_iff] at h
  rcases h with ⟨⟨-, hall⟩, hlen⟩
  have hsum : hopCallSum edges = 2 * edges.length := by
    unfold hopCallSum
    have hmap : edges.map (fun e => estimateHopCalls e.protocol) =
        List.replicate edges.length 2 := by
      rw [List.eq_replicate_iff]
      refine ⟨by simp, ?_⟩
      intro n hn
      rcases List.mem_map.mp hn with ⟨e, he, rfl⟩
      have hproto : e.protocol = .balancerV2 := by simpa using List.all_eq_true.mp hall e he
      rw [hproto]
      rfl
    rw [hmap, List.sum_replicate, smul_eq_mul, mul_comm]
  have hle := estimateRouteCallsFrom_le edges false
  have hmax : maxBalancerBatchHops = 4 := rfl
  have hcalls : maxExecutorCalls = 12 := rfl
  rw [estimateRouteCalls]
  omega

/-- Every nonempty route the budget accepts is encoded, whatever the flash source, into at least one
call and at most as many as the executor takes and as the estimate counts. -/
theorem encodeRoute_withinBudget {hops : List CalldataHop} {flashSource : FlashLoanSource}
    {calls : List RouteCall} (hne : hops ≠ [])
    (hfits : routeFitsExecutor (hops.map CalldataHop.edge) = true)
    (h : Returns (encodeRoute arena hops executor config flashSource) calls) :
    1 ≤ calls.length ∧ calls.length ≤ maxExecutorCalls ∧
      calls.length ≤ estimateRouteCalls (hops.map CalldataHop.edge) := by
  have hedges : hops.map CalldataHop.edge ≠ [] := by simpa using hne
  have hone := one_le_estimateRouteCalls hedges
  have hmax : maxExecutorCalls = 12 := rfl
  rcases encodeRoute_returns h with ⟨-, hbatch⟩ | ⟨-, es, hes, rfl⟩
  · have hlen := length_encodeBalancerBatchRoute hbatch
    omega
  · have hlen : (es.flatMap EncodedHop.calls).length ≤
        estimateRouteCalls (hops.map CalldataHop.edge) := length_encodeHops_le (by simp) hes
    have hest : estimateRouteCalls (hops.map CalldataHop.edge) ≤ maxExecutorCalls := by
      by_cases hbatch : balancerDirectBatchEligible (hops.map CalldataHop.edge) = true
      · exact estimateRouteCalls_le_of_batchEligible hbatch
      · rw [routeFitsExecutor, packedCallsFitExecutor, decide_eq_true_iff,
          estimatePackedRouteCalls, if_neg hbatch] at hfits
        exact hfits
    refine ⟨?_, hlen.trans hest, hlen⟩
    rcases List.exists_cons_of_ne_nil hne with ⟨hop, rest, rfl⟩
    rcases encodeHops_cons hes with ⟨e, others, rfl, hstep, -⟩
    rw [List.flatMap_cons, List.length_append]
    have hpos := List.length_pos_of_ne_nil (calls_ne_nil_of_encodeStep hstep)
    omega

end Budget

/-! ### A WooFi hop into a V2 pair -/

/-- A WooFi pool and a V2 pair, both over tokens 2 and 3. -/
def woofiPairArena : StateArena :=
  let base := pairArena (.woofi quoteSecondWoofi)
  { base with
    inner :=
      { base.inner with
        pools := [⟨none, .woofi quoteSecondWoofi⟩,
          ⟨none, .v2 ⟨2000000000000#256, 1000000000000000000000000#256, 997#256, 1000#256, 1⟩⟩]
        poolAddresses := [0x10000#160, 0x20000#160] } }

/-- A hop with no pool metadata and no assessed output. -/
def plainHop (edge : Edge) (poolAddress tokenIn tokenOut : Address) (amountIn : U256) :
    CalldataHop where
  edge := edge
  poolAddress := poolAddress
  tokenIn := tokenIn
  tokenOut := tokenOut
  amountIn := amountIn
  amountOut := 0
  poolId := none
  protocolLabel := none
  poolType := none
  router := none
  hooks := none

/-- One token 2 through the WooFi pool, and the proceeds back through the pair. -/
def woofiThenPair : List CalldataHop :=
  [plainHop (pairEdge .woofi 1 0) 0x10000#160 2#160 3#160 1000000#256,
    plainHop { pairEdge .uniswapV2 1 0 with poolIndex := 1, tokenIn := 1, tokenOut := 0 }
      0x20000#160 3#160 2#160 0#256]

def halfPercent : RouteEncodeConfig := ⟨50#64, 1700000000#256⟩

/-- The address of the executor contract. -/
def executorAt : Address := 0x30000#160

def woofiThenPairCalls : List RouteCall :=
  [execCall 2#160 (.approve woofiRouterV2 1000000#256),
    execCall woofiRouterV2 (.woofiSwap 2#160 3#160 1000000#256 989752500000000000#256 0x20000#160 0),
    execCall 0x20000#160 (.v2Swap 1894621#256 0 executorAt)]

lemma encodeRoute_woofiThenPair :
    Returns (encodeRoute woofiPairArena woofiThenPair executorAt halfPercent .aaveV3)
      woofiThenPairCalls := by
  unfold Returns
  decide

theorem encodeRoute_withinBudget_woofiThenPair :
    Returns (encodeRoute woofiPairArena woofiThenPair executorAt halfPercent .aaveV3)
        woofiThenPairCalls ∧
      woofiThenPairCalls.length ≤ estimateRouteCalls (woofiThenPair.map CalldataHop.edge) :=
  ⟨encodeRoute_woofiThenPair,
    (encodeRoute_withinBudget (by simp [woofiThenPair]) (by decide) encodeRoute_woofiThenPair).2.2⟩

/-- The empty hop list passes the budget and is encoded into no call at all. -/
theorem encodeRoute_empty :
    routeFitsExecutor (([] : List CalldataHop).map CalldataHop.edge) = true ∧
      Returns (encodeRoute woofiPairArena [] executorAt halfPercent .aaveV3) [] ∧
      ¬ 1 ≤ ([] : List RouteCall).length := by
  refine ⟨by decide, ?_, by decide⟩
  unfold Returns
  decide

end PolygonArb

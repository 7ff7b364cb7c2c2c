import PolygonArb.Services.RouteEncoding

/-!
# Where the tokens are while a route executes

A route moves one token balance along: `Funds` says which token it is and who holds it.  `runCall`
is what a call of the executor does to it, and fails when the call would find nothing to spend, or
would pull a token that has not been approved.

`encodeRoute_flows`: the calls of an encoded route never fail in this sense.  Each hop finds its
input where it takes it from, a V2 pair is paid once, by the hop before it or by one prefund, and
the last hop pays the executor.  `encodeRoute_chains`: no hop is asked to spend more than the one
before it must deliver.
-/

namespace PolygonArb

open Word Encode

/-! ## Executing calls -/

/-- The balance that travels along the route, and the approvals given so far. -/
structure Funds where
  token : Address
  location : Address
  approved : List (Address × Address)

namespace Funds

/-- Swap what lies at `place`. -/
def swapAt (f : Funds) (place tokenIn tokenOut dst : Address) : Option Funds :=
  if f.token = tokenIn ∧ f.location = place then some { f with token := tokenOut, location := dst }
  else none

/-- A spender takes `tokenIn` from `owner` under an approval. -/
def pullFrom (f : Funds) (owner spender tokenIn tokenOut dst : Address) : Option Funds :=
  if (tokenIn, spender) ∈ f.approved then f.swapAt owner tokenIn tokenOut dst else none

end Funds

/-- What a call of the executor does to the funds while `hop` is executed.  V2 pairs and DODO pools
swap what has been sent to them, V3 pools and the V4 manager are paid in their callback, and the
others pull from the executor. -/
def runCall (executor : Address) (hop : CalldataHop) (f : Funds) (call : RouteCall) :
    Option Funds :=
  match call.data with
  | .approve spender _ => some { f with approved := (call.target, spender) :: f.approved }
  | .transfer dst _ => f.swapAt executor call.target call.target dst
  | .transferAll token dst =>
      if call.target = executor then f.swapAt executor token token dst else none
  | .v2Swap _ _ dst => f.swapAt call.target hop.tokenIn hop.tokenOut dst
  | .v3Swap recipient .. => f.swapAt executor hop.tokenIn hop.tokenOut recipient
  | .v4Unlock .. => f.swapAt executor hop.tokenIn hop.tokenOut executor
  | .balancerSwap _ assetIn assetOut _ sender recipient _ _ =>
      if sender = executor then f.pullFrom sender call.target assetIn assetOut recipient else none
  | .curveNgExchange _ _ _ _ receiver =>
      f.pullFrom executor call.target hop.tokenIn hop.tokenOut receiver
  | .curveCryptoExchange .. => f.pullFrom executor call.target hop.tokenIn hop.tokenOut executor
  | .curveStableExchange .. => f.pullFrom executor call.target hop.tokenIn hop.tokenOut executor
  | .dodoSellBase dst => f.swapAt call.target hop.tokenIn hop.tokenOut dst
  | .dodoSellQuote dst => f.swapAt call.target hop.tokenIn hop.tokenOut dst
  | .woofiSwap fromToken toToken _ _ dst _ =>
      f.pullFrom executor call.target fromToken toToken dst
  -- a batch is a route of its own, see `BatchFlows`
  | .balancerBatchSwap .. => none

def runCalls (executor : Address) (hop : CalldataHop) (f : Funds) (calls : List RouteCall) :
    Option Funds :=
  calls.foldlM (runCall executor hop) f

/-- Whether a call only moves the token to `pool`. -/
def RouteCall.prefunds (pool : Address) (call : RouteCall) : Bool :=
  match call.data with
  | .transfer dst _ => dst = pool
  | .transferAll _ dst => dst = pool
  | _ => false

/-- The input of a hop is where the hop takes it from: at the executor, or for a V2 hop either on the
pair already, with no prefund, or at the executor with exactly one. -/
def HopFunded (executor : Address) (e : EncodedHop) (f : Funds) : Prop :=
  f.token = e.hop.tokenIn ∧
    if e.hop.edge.protocol = .uniswapV2 then
      (f.location = e.hop.poolAddress ∧ e.calls.countP (RouteCall.prefunds e.hop.poolAddress) = 0) ∨
        (f.location = executor ∧ e.calls.countP (RouteCall.prefunds e.hop.poolAddress) = 1)
    else f.location = executor

/-- Executing the hops in order finds every input in its place and ends at the executor. -/
def Flows (executor : Address) : Funds → List EncodedHop → Prop
  | f, [] => f.location = executor
  | f, e :: es =>
      HopFunded executor e f ∧
        ∃ f', runCalls executor e.hop f e.calls = some f' ∧ f'.token = e.hop.tokenOut ∧
          Flows executor f' es

/-- Each hop takes in what the hop before it gives out. -/
def Continuous (hops : List CalldataHop) : Prop := hops.IsChain fun a b => a.tokenOut = b.tokenIn

/-- A hop as encoded is the hop of the route up to its amounts. -/
def SameHop (hop : CalldataHop) (e : EncodedHop) : Prop :=
  e.hop = { hop with amountIn := e.hop.amountIn, amountOut := e.hop.amountOut }

/-- The batch of a vault: from the executor to the executor, one step per hop with the hop's tokens,
and only the first step has an amount of its own. -/
structure BatchFlows (executor : Address) (hops : List CalldataHop) (call : RouteCall) : Prop where
  target : call.target = balancerVault
  data : ∃ steps assets limits deadline,
    call.data = .balancerBatchSwap steps assets executor executor limits deadline ∧
      List.Forall₂ (fun hop step => assets[step.assetInIndex]? = some hop.tokenIn ∧
        assets[step.assetOutIndex]? = some hop.tokenOut) hops steps ∧
      ∀ step ∈ steps.tail, step.amount = 0

/-! ## One hop -/

namespace Funds

lemma swapAt_eq (f : Funds) {place tokenIn : Address} (tokenOut dst : Address)
    (htoken : f.token = tokenIn) (hplace : f.location = place) :
    f.swapAt place tokenIn tokenOut dst = some { f with token := tokenOut, location := dst } :=
  if_pos ⟨htoken, hplace⟩

lemma pullFrom_eq (f : Funds) {owner spender tokenIn : Address} (tokenOut dst : Address)
    (happroved : (tokenIn, spender) ∈ f.approved) (htoken : f.token = tokenIn)
    (howner : f.location = owner) :
    f.pullFrom owner spender tokenIn tokenOut dst =
      some { f with token := tokenOut, location := dst } := by
  rw [pullFrom, if_pos happroved, swapAt_eq f tokenOut dst htoken howner]

end Funds

section Hop

variable {executor recipient : Address} {hop : CalldataHop} {f : Funds}

/-- A transfer to the pool, exact or of everything, moves the funds from the executor to it. -/
lemma runCall_tokenTransfer (useTransferAll : Bool) (htoken : f.token = hop.tokenIn)
    (hat : f.location = executor) :
    runCall executor hop f
        (encodeTokenTransfer executor hop.tokenIn hop.poolAddress hop.amountIn useTransferAll) =
      some { f with location := hop.poolAddress } := by
  have hswap := f.swapAt_eq hop.tokenIn hop.poolAddress htoken hat
  cases useTransferAll with
  | true => simpa [runCall, encodeTokenTransfer, execCall, htoken] using hswap
  | false => simpa [runCall, encodeTokenTransfer, execCall, htoken] using hswap

/-- An approval and a pull by the approved spender. -/
lemma runCalls_pull {spender : Address} {data : CallData} {dst : Address}
    (hpull : ∀ g : Funds, runCall executor hop g (execCall spender data) =
      g.pullFrom executor spender hop.tokenIn hop.tokenOut dst)
    (htoken : f.token = hop.tokenIn) (hat : f.location = executor) :
    ∃ f', runCalls executor hop f
        [encodeApproveIfNeeded hop.tokenIn spender hop.amountIn, execCall spender data] = some f' ∧
      f'.token = hop.tokenOut ∧ f'.location = dst := by
  let g : Funds := { f with approved := (hop.tokenIn, spender) :: f.approved }
  have hg : runCall executor hop f (encodeApproveIfNeeded hop.tokenIn spender hop.amountIn) =
      some g := rfl
  have hrun := hpull g
  rw [g.pullFrom_eq hop.tokenOut dst List.mem_cons_self htoken hat] at hrun
  refine ⟨{ g with token := hop.tokenOut, location := dst }, ?_, rfl, rfl⟩
  simp only [runCalls, List.foldlM_cons, hg, hrun, List.foldlM_nil, Option.bind_eq_bind,
    Option.bind_some, Option.pure_def]

/-- The calls of a hop that is not V2 take the input from the executor and pay the recipient.  A hop
that cannot choose its recipient must have been given the executor. -/
lemma runCalls_of_hopCalls {g : Option U256} {calls : List RouteCall}
    (h : HopCalls executor hop recipient g calls)
    (hdirect : hopCanDirectOutputTo hop = false → recipient = executor)
    (htoken : f.token = hop.tokenIn) (hat : f.location = executor) :
    ∃ f', runCalls executor hop f calls = some f' ∧ f'.token = hop.tokenOut ∧
      f'.location = recipient := by
  cases h with
  | v3 hproto =>
      refine ⟨{ f with token := hop.tokenOut, location := recipient }, ?_, rfl, rfl⟩
      simp [runCalls, runCall, execCall, f.swapAt_eq hop.tokenOut recipient htoken hat]
  | v4 hproto =>
      have hexec : recipient = executor := hdirect (by simp [hopCanDirectOutputTo, hproto])
      refine ⟨⟨hop.tokenOut, recipient, (hop.tokenIn, uniswapV4PoolManager) :: f.approved⟩, ?_,
        rfl, rfl⟩
      simp [runCalls, runCall, execCall, encodeApproveIfNeeded, Funds.swapAt, htoken, hat, hexec]
  | curveNg hproto hng => exact runCalls_pull (fun _ => rfl) htoken hat
  | curveCrypto hproto hng =>
      have hexec : recipient = executor := hdirect (by simp [hopCanDirectOutputTo, hproto, hng])
      rw [hexec]
      exact runCalls_pull (fun _ => rfl) htoken hat
  | curveStable hproto hng =>
      have hexec : recipient = executor := hdirect (by simp [hopCanDirectOutputTo, hproto, hng])
      rw [hexec]
      exact runCalls_pull (fun _ => rfl) htoken hat
  | balancer hproto => exact runCalls_pull (fun _ => by simp [runCall, execCall]) htoken hat
  | @dodo useTransferAll sellBase hproto =>
      refine ⟨{ f with token := hop.tokenOut, location := recipient }, ?_, rfl, rfl⟩
      rw [runCalls, List.foldlM_cons, runCall_tokenTransfer useTransferAll htoken hat]
      cases sellBase <;> simp [runCall, execCall, Funds.swapAt, htoken]
  | woofi hproto => exact runCalls_pull (fun _ => rfl) htoken hat

/-- A prefund and the swap of a V2 hop, or the swap alone on a pair that has been paid. -/
lemma runCalls_v2 {prefund : V2Prefund} (out : U256) (dst : Address)
    (htoken : f.token = hop.tokenIn)
    (hplace : if prefund = .skipped then f.location = hop.poolAddress else f.location = executor) :
    ∃ f', runCalls executor hop f
        (prefundCalls executor hop prefund ++ [execCall hop.poolAddress (v2SwapData hop out dst)]) =
          some f' ∧ f'.token = hop.tokenOut ∧ f'.location = dst := by
  have hswap : ∀ g : Funds, g.token = hop.tokenIn → g.location = hop.poolAddress →
      runCall executor hop g (execCall hop.poolAddress (v2SwapData hop out dst)) =
        some { g with token := hop.tokenOut, location := dst } := by
    intro g hg hat
    rw [← g.swapAt_eq hop.tokenOut dst hg hat]
    cases hz : hop.edge.zeroForOne <;> simp [runCall, execCall, v2SwapData, hz]
  refine ⟨{ f with token := hop.tokenOut, location := dst }, ?_, rfl, rfl⟩
  cases prefund with
  | skipped =>
      simp only [if_true] at hplace
      simp [runCalls, prefundCalls, hswap f htoken hplace]
  | exact =>
      simp only [reduceCtorEq, if_false] at hplace
      simp [runCalls, prefundCalls, runCall_tokenTransfer false htoken hplace,
        hswap { f with location := hop.poolAddress } htoken rfl]
  | transferAll =>
      simp only [reduceCtorEq, if_false] at hplace
      simp [runCalls, prefundCalls, runCall_tokenTransfer true htoken hplace,
        hswap { f with location := hop.poolAddress } htoken rfl]

lemma countP_prefunds_v2 (prefund : V2Prefund) (out : U256) (dst : Address) :
    (prefundCalls executor hop prefund ++
      [execCall hop.poolAddress (v2SwapData hop out dst)]).countP
        (RouteCall.prefunds hop.poolAddress) = if prefund = .skipped then 0 else 1 := by
  cases hz : hop.edge.zeroForOne <;> cases prefund <;>
    simp [prefundCalls, RouteCall.prefunds, encodeTokenTransfer, execCall, v2SwapData, hz]

end Hop

/-! ## The loop -/

section Loop

variable {arena : StateArena} {executor : Address} {config : RouteEncodeConfig}

/-- Between two hops the funds are at the executor or on the pair of the V2 hop that follows. -/
def BetweenHops (executor : Address) (next : Option CalldataHop) (f : Funds) : Prop :=
  f.location = executor ∨ nextV2Pair next = some f.location

lemma betweenHops_outputTo {next : Option CalldataHop} {f : Funds}
    (h : f.location = outputTo executor next) : BetweenHops executor next f := by
  unfold outputTo at h
  cases hpair : nextV2Pair next with
  | none =>
      rw [hpair] at h
      exact .inl h
  | some pair =>
      rw [hpair] at h
      exact .inr (hpair.trans (congrArg some h.symm))

lemma betweenHops_otherRecipient {hop : CalldataHop} {next : Option CalldataHop} {f : Funds}
    (h : f.location = otherRecipient executor hop next) : BetweenHops executor next f := by
  unfold otherRecipient at h
  split_ifs at h
  · exact betweenHops_outputTo h
  · exact .inl h

lemma sameHop_of_v2Step {isFirst : Bool} {chainIn : Option U256} {fundsAt : Option Address}
    {hop : CalldataHop} {next : Option CalldataHop} {e : EncodedHop}
    (h : V2Step executor isFirst chainIn fundsAt hop next e) : SameHop hop e := by
  rw [SameHop, h.hop_eq]
  cases chainIn <;> rfl

lemma sameHop_of_otherStep {chainIn : Option U256} {hop : CalldataHop}
    {next : Option CalldataHop} {e : EncodedHop} {quoted minOut : U256}
    (h : OtherStep arena executor config chainIn hop next e quoted minOut) : SameHop hop e := by
  rw [SameHop, h.hop_eq]
  cases chainIn <;> rfl

/-- One hop of the loop: it is funded, its calls run, and they leave the output between the hops. -/
lemma hop_flows {isFirst : Bool} {chainIn : Option U256} {fundsAt : Option Address}
    {hop : CalldataHop} {next : Option CalldataHop} {e : EncodedHop} {f : Funds}
    (h : Returns (encodeStep arena executor config isFirst chainIn fundsAt hop next) e)
    (htoken : f.token = hop.tokenIn) (hfunds : f.location = fundsAt.getD executor)
    (hbetween : BetweenHops executor (some hop) f) :
    SameHop hop e ∧ HopFunded executor e f ∧
      ∃ f', runCalls executor e.hop f e.calls = some f' ∧ f'.token = e.hop.tokenOut ∧
        f'.location = e.fundsAt ∧ BetweenHops executor next f' := by
  by_cases hv2 : hop.edge.protocol = .uniswapV2
  · have hspec := encodeStep_v2 hv2 h
    rcases hspec.calls_eq with ⟨out, -, hcalls⟩
    have hsame := sameHop_of_v2Step hspec
    have htoken' : f.token = e.hop.tokenIn := by rw [hsame]; exact htoken
    have hproto : e.hop.edge.protocol = .uniswapV2 := by rw [hsame]; exact hv2
    have hpool : e.hop.poolAddress = hop.poolAddress := by rw [hsame]
    -- the prefund is skipped exactly when the funds are on the pair
    have hplace : if v2PrefundOf isFirst fundsAt e.hop = .skipped then
        f.location = e.hop.poolAddress else f.location = executor := by
      by_cases hpaid : fundsAt = some e.hop.poolAddress
      · rw [v2PrefundOf, if_pos hpaid, if_pos rfl, hfunds, hpaid]
        rfl
      · have hnot : v2PrefundOf isFirst fundsAt e.hop ≠ .skipped := by
          rw [v2PrefundOf, if_neg hpaid]
          cases isFirst <;> decide
        rw [if_neg hnot]
        rcases hbetween with hexec | hpair
        · exact hexec
        · cases fundsAt with
          | none => exact hfunds
          | some a =>
              rw [nextV2Pair, if_pos hv2, Option.some.injEq] at hpair
              rw [Option.getD_some] at hfunds
              exact absurd (by rw [hpool, hpair, hfunds]) hpaid
    rcases runCalls_v2 out e.fundsAt htoken' hplace with ⟨f', hrun, ht, hl⟩
    rw [← hcalls] at hrun
    refine ⟨hsame, ⟨htoken', ?_⟩, f', hrun, ht, hl, ?_⟩
    · rw [if_pos hproto, hcalls, countP_prefunds_v2]
      split_ifs at hplace ⊢ with hskip
      · exact .inl ⟨hplace, rfl⟩
      · exact .inr ⟨hplace, rfl⟩
    · exact betweenHops_outputTo (hl.trans hspec.fundsAt_eq)
  · rcases encodeStep_other hv2 h with ⟨quoted, minOut, hspec⟩
    rcases hspec.calls_shape with ⟨g, hshape, -⟩
    have hsame := sameHop_of_otherStep hspec
    have htoken' : f.token = e.hop.tokenIn := by rw [hsame]; exact htoken
    have hproto : e.hop.edge.protocol ≠ .uniswapV2 := by rw [hsame]; exact hv2
    have hexec : f.location = executor := by
      rcases hbetween with hexec | hpair
      · exact hexec
      · rw [nextV2Pair, if_neg hv2] at hpair
        cases hpair
    have hdirect : hopCanDirectOutputTo e.hop = false → e.fundsAt = executor := by
      intro hno
      rw [hspec.fundsAt_eq, otherRecipient, hno]
      rfl
    rcases runCalls_of_hopCalls hshape hdirect htoken' hexec with ⟨f', hrun, ht, hl⟩
    refine ⟨hsame, ⟨htoken', ?_⟩, f', hrun, ht, hl, ?_⟩
    · rw [if_neg hproto]
      exact hexec
    · exact betweenHops_otherRecipient (hl.trans hspec.fundsAt_eq)

/-- The loop from any hop on, by induction over the remaining hops: the funds start between hops. -/
lemma flows_encodeHops {hops : List CalldataHop} :
    ∀ {isFirst : Bool} {chainIn : Option U256} {fundsAt : Option Address} {es : List EncodedHop}
      {f : Funds}, Continuous hops → (∀ hop, hops.head? = some hop → f.token = hop.tokenIn) →
      f.location = fundsAt.getD executor → BetweenHops executor hops.head? f →
      Returns (encodeHops arena executor config isFirst chainIn fundsAt hops) es →
      List.Forall₂ SameHop hops es ∧ Flows executor f es := by
  induction hops with
  | nil =>
      intro isFirst chainIn fundsAt es f _ _ _ hbetween h
      obtain rfl := returns_pure.mp h
      refine ⟨.nil, ?_⟩
      rcases hbetween with hexec | hpair
      · exact hexec
      · cases hpair
  | cons hop rest ih =>
      intro isFirst chainIn fundsAt es f hcont htoken hfunds hbetween h
      rcases encodeHops_cons h with ⟨e, others, rfl, hstep, htail⟩
      rcases hop_flows hstep (htoken hop rfl) hfunds hbetween with
        ⟨hsame, hfunded, f', hrun, ht, hl, hnext⟩
      have hout : e.hop.tokenOut = hop.tokenOut := by rw [hsame]
      have htoken' : ∀ nextHop, rest.head? = some nextHop → f'.token = nextHop.tokenIn := by
        intro nextHop hhead
        rw [ht, hout]
        exact hcont.rel_head? hhead
      have hat : f'.location = (some e.fundsAt).getD executor := hl
      rcases ih hcont.tail htoken' hat hnext htail with ⟨hall, hflows⟩
      exact ⟨.cons hsame hall, hfunded, f', hrun, ht, hflows⟩

end Loop

/-! ## The batch -/

lemma getElem?_of_findIdx? {assets : List Address} {token : Address} {i : ℕ}
    (h : assets.findIdx? (· = token) = some i) : assets[i]? = some token := by
  rcases List.findIdx?_eq_some_iff_getElem.mp h with ⟨hlt, htoken, -⟩
  rw [List.getElem?_eq_getElem hlt]
  simpa using htoken

/-- Every step of a batch names the tokens of its hop, and after the first hop has no amount. -/
lemma batchSteps_returns {assets : List Address} {hops : List CalldataHop} :
    ∀ {isFirst : Bool} {steps : List BalancerBatchSwapStep},
      Returns (batchSteps assets isFirst hops) steps →
      List.Forall₂ (fun hop step => assets[step.assetInIndex]? = some hop.tokenIn ∧
        assets[step.assetOutIndex]? = some hop.tokenOut) hops steps ∧
        (∀ step ∈ steps.tail, step.amount = 0) ∧
        (isFirst = false → ∀ step ∈ steps, step.amount = 0) := by
  induction hops with
  | nil =>
      intro isFirst steps h
      obtain rfl := returns_pure.mp h
      simp
  | cons hop rest ih =>
      intro isFirst steps h
      simp only [batchSteps, resolveBalancerPoolId, returns_bind, returns_orBail,
        returns_pure] at h
      rcases h with ⟨poolId, -, assetIn, hin, assetOut, hout, others, hothers, rfl⟩
      rcases ih hothers with ⟨hall, -, hzero⟩
      refine ⟨.cons ⟨getElem?_of_findIdx? hin, getElem?_of_findIdx? hout⟩ hall, hzero rfl, ?_⟩
      intro hfirst step hmem
      rcases List.mem_cons.mp hmem with rfl | hmem
      · simp [hfirst]
      · exact hzero rfl step hmem

lemma encodeBalancerBatchRoute_flows {hops : List CalldataHop} {executor : Address}
    {deadline : U256} {calls : List RouteCall}
    (h : Returns (encodeBalancerBatchRoute hops executor deadline) calls) :
    ∃ call, calls = [call] ∧ BatchFlows executor hops call := by
  unfold encodeBalancerBatchRoute at h
  rcases returns_bind.mp (returns_guard.mp h).2 with ⟨steps, hsteps, hcalls⟩
  obtain rfl := returns_pure.mp hcalls
  rcases batchSteps_returns hsteps with ⟨hall, hzero, -⟩
  exact ⟨_, rfl, rfl, _, _, _, _, rfl, hall, hzero⟩

/-! ## The route -/

section Route

variable {arena : StateArena} {hops : List CalldataHop} {executor : Address}
  {config : RouteEncodeConfig} {flashSource : FlashLoanSource} {calls : List RouteCall}

/-- The calls of an encoded route either are the one batch of a short pure Balancer route, or run hop
by hop from the loan on the executor back to the executor. -/
theorem encodeRoute_flows (hcont : Continuous hops)
    (h : Returns (encodeRoute arena hops executor config flashSource) calls) :
    (isBatchRoute hops flashSource = true ∧ ∃ call, calls = [call] ∧ BatchFlows executor hops call) ∨
      isBatchRoute hops flashSource = false ∧
        ∃ es, calls = es.flatMap EncodedHop.calls ∧ List.Forall₂ SameHop hops es ∧
          ∀ f : Funds, f.location = executor → (∀ hop, hops.head? = some hop → f.token = hop.tokenIn) →
            Flows executor f es := by
  rcases encodeRoute_returns h with ⟨hroute, hbatch⟩ | ⟨hroute, es, hes, rfl⟩
  · exact .inl ⟨hroute, encodeBalancerBatchRoute_flows hbatch⟩
  · refine .inr ⟨hroute, es, rfl, ?_, ?_⟩
    · -- the hops do not depend on the funds
      let f : Funds := ⟨(hops.head?.map CalldataHop.tokenIn).getD 0, executor, []⟩
      have htoken : ∀ hop, hops.head? = some hop → f.token = hop.tokenIn := by
        intro hop hhead
        simp [f, hhead]
      exact (flows_encodeHops hcont htoken rfl (.inl rfl) hes).1
    · intro f hat htoken
      have hloan : f.location = (none : Option Address).getD executor := hat
      exact (flows_encodeHops hcont htoken hloan (.inl hat) hes).2

end Route

theorem encodeRoute_flows_woofiThenPair :
    Continuous woofiThenPair ∧
      ∃ es, woofiThenPairCalls = es.flatMap EncodedHop.calls ∧
        Flows executorAt ⟨2#160, executorAt, []⟩ es := by
  have hcont : Continuous woofiThenPair := by simp [Continuous, woofiThenPair, plainHop]
  refine ⟨hcont, ?_⟩
  rcases encodeRoute_flows hcont encodeRoute_woofiThenPair with ⟨hbatch, -⟩ | ⟨-, es, hcalls, -, hflows⟩
  · exact absurd hbatch (by decide)
  · exact ⟨es, hcalls, hflows _ rfl (by simp [woofiThenPair, plainHop])⟩

/-- The same two hops with a gap between them: the pair is to take in token 4, which nothing gives
out. -/
def brokenChain : List CalldataHop :=
  woofiThenPair.modify 1 fun hop => { hop with tokenIn := 4#160 }

/-- The pair of `woofiThenPair` is paid by the WooFi hop before it, which is no V2 hop, and not by
any prefund.  And hops that do not chain are encoded all the same. -/
theorem woofi_pays_pair :
    Returns (encodeRoute woofiPairArena woofiThenPair executorAt halfPercent .aaveV3)
        woofiThenPairCalls ∧
      woofiThenPair.map (fun hop => (hop.edge.protocol, hop.poolAddress)) =
        [(.woofi, 0x10000#160), (.uniswapV2, 0x20000#160)] ∧
      woofiThenPairCalls.countP (RouteCall.prefunds 0x20000#160) = 0 ∧
      ¬ Continuous brokenChain ∧
      Returns (encodeRoute woofiPairArena brokenChain executorAt halfPercent .aaveV3)
        woofiThenPairCalls := by
  refine ⟨encodeRoute_woofiThenPair, by decide, by decide, ?_, ?_⟩
  · simp [Continuous, brokenChain, woofiThenPair, plainHop]
  · unfold Returns
    decide

/-! ## Amounts along the route -/

/-- The amount in that a call names, if it names one. -/
def CallData.spends : CallData → Option ℤ
  | .approve _ amount => some amount.toNat
  | .transfer _ amount => some amount.toNat
  | .v3Swap _ _ amountSpecified .. => some amountSpecified
  | .v4Unlock _ _ amountSpecified _ => some (-amountSpecified)
  | .balancerSwap _ _ _ amount .. => some amount.toNat
  | .curveNgExchange _ _ dx .. => some dx.toNat
  | .curveCryptoExchange _ _ dx _ => some dx.toNat
  | .curveStableExchange _ _ dx _ => some dx.toNat
  | .woofiSwap _ _ fromAmount .. => some fromAmount.toNat
  | _ => none

/-- The output below which a call reverts, if it has one.  A V2 swap names the exact amount. -/
def CallData.guarantees : CallData → Option U256
  | .v2Swap amount0Out amount1Out _ => some (if amount0Out = 0 then amount1Out else amount0Out)
  | .balancerSwap _ _ _ _ _ _ limit _ => some limit
  | .curveNgExchange _ _ _ minDy _ => some minDy
  | .curveCryptoExchange _ _ _ minDy => some minDy
  | .curveStableExchange _ _ _ minDy => some minDy
  | .woofiSwap _ _ _ minToAmount _ _ => some minToAmount
  | _ => none

/-- What the calls of a hop guarantee: its swap is the last of them. -/
def guaranteedOut (calls : List RouteCall) : Option U256 :=
  calls.getLast?.bind fun call => call.data.guarantees

/-- What a hop delivers at least: the minimum in its own calldata or, without one, the
slippage-adjusted quote. -/
def EncodedHop.delivers (arena : StateArena) (config : RouteEncodeConfig) (e : EncodedHop) :
    Option U256 :=
  match guaranteedOut e.calls, quoteHopForExecution arena e.hop with
  | some m, _ => some m
  | none, some (some quoted) => slippageAdjusted quoted (hopSlippageBps config.slippageBps)
  | none, _ => none

/-- The amounts of the encoded hops against the assessed ones and against each other. -/
structure AmountsChain (arena : StateArena) (config : RouteEncodeConfig) (hops : List CalldataHop)
    (es : List EncodedHop) : Prop where
  same : List.Forall₂ SameHop hops es
  /-- The calls of a hop name its amount in and no other. -/
  encoded : ∀ e ∈ es, ∀ call ∈ e.calls, ∀ n, call.data.spends = some n → n = e.hop.amountIn.toNat
  assessed : List.Forall₂ (fun hop e => hop.amountIn ≠ 0 → e.hop.amountIn ≤ hop.amountIn) hops es
  chained : es.IsChain fun e e' => ∃ m, e.delivers arena config = some m ∧ e'.hop.amountIn ≤ m

section Amounts

variable {arena : StateArena} {executor recipient : Address} {config : RouteEncodeConfig}
  {hop : CalldataHop}

lemma HopCalls.guaranteedOut_eq {g : Option U256} {calls : List RouteCall}
    (h : HopCalls executor hop recipient g calls) : guaranteedOut calls = g := by
  cases h with
  | @dodo useTransferAll sellBase hproto => cases sellBase <;> rfl
  | _ => rfl

lemma HopCalls.spends_eq {g : Option U256} {calls : List RouteCall}
    (h : HopCalls executor hop recipient g calls) :
    ∀ call ∈ calls, ∀ n, call.data.spends = some n → n = hop.amountIn.toNat := by
  cases h with
  | @dodo useTransferAll sellBase hproto =>
      cases useTransferAll <;> cases sellBase <;>
        simp +contextual [encodeTokenTransfer, execCall, CallData.spends, eq_comm]
  | _ => simp +contextual [encodeApproveIfNeeded, execCall, CallData.spends, eq_comm]

lemma guaranteedOut_v2 (prefund : V2Prefund) (out : U256) (dst : Address) :
    guaranteedOut (prefundCalls executor hop prefund ++
      [execCall hop.poolAddress (v2SwapData hop out dst)]) = some out := by
  cases hz : hop.edge.zeroForOne with
  | true => simp [guaranteedOut, execCall, v2SwapData, hz, CallData.guarantees]
  | false =>
      simp only [guaranteedOut, execCall, v2SwapData, hz, CallData.guarantees, List.getLast?_append,
        List.getLast?_singleton, Option.some_or, Option.bind_some, Bool.false_eq_true, if_false]
      split_ifs with hzero
      · rw [hzero]
      · rfl

lemma spends_v2 (prefund : V2Prefund) (out : U256) (dst : Address) :
    ∀ call ∈ prefundCalls executor hop prefund ++
      [execCall hop.poolAddress (v2SwapData hop out dst)],
      ∀ n, call.data.spends = some n → n = hop.amountIn.toNat := by
  cases hz : hop.edge.zeroForOne <;> cases prefund <;>
    simp +contextual [prefundCalls, encodeTokenTransfer, execCall, v2SwapData, hz, CallData.spends,
      eq_comm]

lemma amountIn_applyChainIn_le (hop : CalldataHop) (chainIn : Option U256) :
    hop.amountIn ≠ 0 → (applyChainIn hop chainIn).amountIn ≤ hop.amountIn := by
  intro hne
  cases chainIn with
  | none => exact BitVec.le_refl _
  | some ain =>
      simp only [applyChainIn, if_neg hne, le_iff, toNat_min]
      exact min_le_right _ _

lemma amountIn_applyChainIn_le_chain (hop : CalldataHop) (ain : U256) :
    (applyChainIn hop (some ain)).amountIn ≤ ain := by
  simp only [applyChainIn]
  split_ifs
  · exact BitVec.le_refl _
  · rw [le_iff, toNat_min]
    exact min_le_left _ _

/-- One turn of the loop: the hop keeps to its assessed and its chained amount, its calls name that
amount, and what it chains on is at most what it delivers. -/
lemma hop_amounts {isFirst : Bool} {chainIn : Option U256} {fundsAt : Option Address}
    {next : Option CalldataHop} {e : EncodedHop}
    (h : Returns (encodeStep arena executor config isFirst chainIn fundsAt hop next) e) :
    e.hop.amountIn = (applyChainIn hop chainIn).amountIn ∧
      (∀ call ∈ e.calls, ∀ n, call.data.spends = some n → n = e.hop.amountIn.toNat) ∧
      ∀ n, next = some n → ∃ m ain, e.delivers arena config = some m ∧ e.chainIn = some ain ∧
        ain ≤ m := by
  by_cases hv2 : hop.edge.protocol = .uniswapV2
  · have hspec := encodeStep_v2 hv2 h
    rcases hspec.calls_eq with ⟨out, hchain, hcalls⟩
    refine ⟨by rw [hspec.hop_eq], ?_, ?_⟩
    · rw [hcalls]
      exact spends_v2 _ _ _
    · intro _ _
      refine ⟨out, out, ?_, hchain, BitVec.le_refl _⟩
      rw [EncodedHop.delivers, hcalls, guaranteedOut_v2]
  · rcases encodeStep_other hv2 h with ⟨quoted, minOut, hspec⟩
    rcases hspec.calls_shape with ⟨g, hshape, hg⟩
    have hdelivers : e.delivers arena config = some minOut := by
      rw [EncodedHop.delivers, hshape.guaranteedOut_eq, hspec.quote_eq]
      cases g with
      | none => exact hspec.minOut_eq
      | some m => rw [hg m rfl]
    refine ⟨by rw [hspec.hop_eq]; rfl, hshape.spends_eq, ?_⟩
    intro n hn
    rcases hspec.chainIn_eq n hn with ⟨chained, hchained, hadjusted⟩
    exact ⟨minOut, chained, hdelivers, hchained,
      slippageAdjusted_anti (saturatingAdd64_ge _ _) hspec.minOut_eq hadjusted⟩

lemma sameHop_of_encodeStep {isFirst : Bool} {chainIn : Option U256} {fundsAt : Option Address}
    {next : Option CalldataHop} {e : EncodedHop}
    (h : Returns (encodeStep arena executor config isFirst chainIn fundsAt hop next) e) :
    SameHop hop e := by
  by_cases hv2 : hop.edge.protocol = .uniswapV2
  · exact sameHop_of_v2Step (encodeStep_v2 hv2 h)
  · rcases encodeStep_other hv2 h with ⟨quoted, minOut, hspec⟩
    exact sameHop_of_otherStep hspec

/-- The loop from any hop on.  The induction also bounds the first hop by what is chained into it. -/
lemma amountsChain_encodeHops {hops : List CalldataHop} :
    ∀ {isFirst : Bool} {chainIn : Option U256} {fundsAt : Option Address} {es : List EncodedHop},
      Returns (encodeHops arena executor config isFirst chainIn fundsAt hops) es →
      AmountsChain arena config hops es ∧
        ∀ ain, chainIn = some ain → ∀ e ∈ es.head?, e.hop.amountIn ≤ ain := by
  induction hops with
  | nil =>
      intro isFirst chainIn fundsAt es h
      obtain rfl := returns_pure.mp h
      exact ⟨⟨.nil, by simp, .nil, .nil⟩, by simp⟩
  | cons hop rest ih =>
      intro isFirst chainIn fundsAt es h
      rcases encodeHops_cons h with ⟨e, others, rfl, hstep, htail⟩
      rcases ih htail with ⟨hrest, hhead⟩
      rcases hop_amounts hstep with ⟨hamount, hspends, hchain⟩
      refine ⟨⟨.cons (sameHop_of_encodeStep hstep) hrest.same, ?_, .cons ?_ hrest.assessed, ?_⟩, ?_⟩
      · intro e' hmem
        rcases List.mem_cons.mp hmem with rfl | hmem
        · exact hspends
        · exact hrest.encoded e' hmem
      · rw [hamount]
        exact amountIn_applyChainIn_le hop chainIn
      · rw [List.isChain_cons]
        refine ⟨?_, hrest.chained⟩
        intro e' hmem
        cases hrest.same with
        | nil => cases hmem
        | @cons next _ hops' es' hsame hsames =>
            rcases hchain next rfl with ⟨m, ain, hm, hain, hle⟩
            exact ⟨m, hm, BitVec.le_trans (hhead ain hain e' hmem) hle⟩
      · rintro ain rfl e' hmem
        obtain rfl := Option.some.inj hmem
        rw [hamount]
        exact amountIn_applyChainIn_le_chain hop ain

/-- No hop of an encoded route is asked to spend more than it was assessed for, nor more than the
hop before it must deliver.  In a batch the vault itself passes the amounts on. -/
theorem encodeRoute_chains {hops : List CalldataHop} {flashSource : FlashLoanSource}
    {calls : List RouteCall}
    (h : Returns (encodeRoute arena hops executor config flashSource) calls) :
    (isBatchRoute hops flashSource = true ∧ ∃ call, calls = [call] ∧ BatchFlows executor hops call) ∨
      isBatchRoute hops flashSource = false ∧
        ∃ es, calls = es.flatMap EncodedHop.calls ∧ AmountsChain arena config hops es := by
  rcases encodeRoute_returns h with ⟨hroute, hbatch⟩ | ⟨hroute, es, hes, rfl⟩
  · exact .inl ⟨hroute, encodeBalancerBatchRoute_flows hbatch⟩
  · exact .inr ⟨hroute, es, rfl, (amountsChain_encodeHops hes).1⟩

end Amounts

theorem encodeRoute_chains_woofiThenPair :
    Returns (encodeRoute woofiPairArena woofiThenPair executorAt halfPercent .aaveV3)
        woofiThenPairCalls ∧
      ∃ es, woofiThenPairCalls = es.flatMap EncodedHop.calls ∧
        AmountsChain woofiPairArena halfPercent woofiThenPair es := by
  refine ⟨encodeRoute_woofiThenPair, ?_⟩
  rcases encodeRoute_chains encodeRoute_woofiThenPair with ⟨hbatch, -⟩ | ⟨-, hchain⟩
  · exact absurd hbatch (by decide)
  · exact hchain

end PolygonArb

import PolygonArb.Pipeline.GraphCache
import PolygonArb.Services.FlashFunding
import PolygonArb.Services.RouteAssess

/-!
# Which pools the graph admits

The gate of `pipeline/graph.rs`: `pool_has_admissible_edges` asks whether a pool row would give the graph
an edge, and whether its tokens are priced, borrowable or connected; `pool_worth_capped_attach` asks the
second half alone.  The counts and the search for missing pools read these answers
(`countGraphEligiblePoolsWithGate`, `hasMissingEligiblePoolsWithGate`).

Pricing a pair can overflow, so the first answer is a `Run`.
-/

namespace PolygonArb

open Word

/-! ## The gate -/

def polygonHubTokens : List Address :=
  [ 0x0d500B1d8E8eF31E21C99d1Db9A6444d3ADf1270, -- WMATIC
    0x2791bca1f2de4661ed88a30c99a7a9449aa84174, -- USDC_E
    0x3c499c542cef5e3811e1192ce70d8cc03d5c3359, -- USDC_NATIVE
    0xc2132d05d31c914a87c6611c10748aeb04b58e8f, -- USDT
    0x7ceb23fd6bc0add59e62ac25578270cff1b9f619, -- WETH
    0x1bfd67037b42cf73acf2047067bd4f2c47d9bfd6, -- WBTC
    0x8f3cf7ad23cd3cadbd9735aff958023239c6a063, -- DAI
    0x53e0bca35ec356bd5dddfebbd1fc0fd03fabad39, -- LINK
    0xd6df932a45c0f255f85145f286ea0b292b21c90b, -- AAVE
    0x172370d5cd63279efa6d502dab29171933a610af, -- CRV
    0x0b3f868e0be5597d5db7feb59e1cadbb0fdda50a, -- SUSHI
    0x9a71012b13ca4d3d0cdc72a177df3ef03b0e76a3, -- BAL
    0xbbba073c31bf03b8acf7c28ef0738decf3695683, -- SAND
    0xa1c57f48f0deb89f569dfbe6e2b7f46d33606fd4, -- MANA
    0xb33eaad8d922b1083446dc23f610c2567fb5180f, -- UNI
    0x5fe2b58c013d7601147dcdd68c143a77499f5531, -- GRT
    0x385eeac5cb85a38a9a07a70c73e0a3271cfb54a7, -- GHST
    0x03b54a6e9a984069379fae1a4fc4dbae93b3bccd, -- WST_ETH
    0x8505b9d2254a7ae468c0e9dd10ccea3a837aef5c, -- COMP
    0x50b728d8d964fd00c2d0aad81718b71311fef68a ] -- SNX

def isPolygonHubToken (addr : Address) : Bool := polygonHubTokens.contains addr

/-- The rates, the loans and the connected spoke tokens a build is gated on.  `now` is the clock the
freshness of a loan is read against. -/
structure GraphBuildGate (β : Type) where
  tokenToMaticRates : List (TokenIndex × U256)
  flash : FlashCache β
  flashTtl : ℕ
  spokeConnectivity : Option (List Address)
  now : ℕ

namespace GraphBuildGate

variable {β : Type}

/-- Without rates there is nothing to gate on. -/
def active (gate : GraphBuildGate β) : Bool := !gate.tokenToMaticRates.isEmpty

def rates (gate : GraphBuildGate β) : TokenRates := fun token => gate.tokenToMaticRates.lookup token

end GraphBuildGate

def hasReliableMaticRate (token : TokenIndex) (rates : TokenRates) : Bool :=
  (lookupMaticRate token rates).isSome

def tokenFlashLiquidityBorrowable (liquidity : TokenFlashLiquidity) : Bool :=
  liquidity.balancer ≠ 0 || liquidity.dodo ≠ 0 || (liquidity.aaveListed && liquidity.aave ≠ 0)

/-- A token nothing fresh is known of counts when it is a hub. -/
def tokenEligibleForFlashBorrowGraph {β : Type} (token : Address) (flash : FlashCache β)
    (ttl now : ℕ) : Bool :=
  if flash.hasFresh token ttl now then
    tokenFlashLiquidityBorrowable (flash.tokenLiquidity token ttl now)
  else isPolygonHubToken token

/-- The index of the pool's own token: the row's, or else the vault's. -/
def rowBptIndex (state : Option PoolState) (pool : PoolMeta) : Option ℕ :=
  pool.bptIndex <|> state.bind fun
    | .balancer s => s.bptIndex
    | _ => none

section Gate

variable {β : Type} (gate : Option (GraphBuildGate β)) (arena : StateArena) (pool : PoolMeta)

/-- Some token of the row, other than the pool's own, passes the test. -/
def anyRowToken (bptIndex : Option ℕ) (test : TokenIndex → Bool) : Bool :=
  pool.tokens.zipIdx.any fun entry => decide (bptIndex ≠ some entry.2) && test entry.1

/-- Priced, borrowable, or in touch with the spoke tokens. -/
def rowHasReach (gate : GraphBuildGate β) (bptIndex : Option ℕ) : Bool :=
  anyRowToken pool bptIndex (fun token => hasReliableMaticRate token gate.rates) ||
    anyRowToken pool bptIndex (fun token => (arena.tokenAddress token).any fun addr =>
      tokenEligibleForFlashBorrowGraph addr gate.flash gate.flashTtl gate.now) ||
    gate.spokeConnectivity.any fun conn =>
      anyRowToken pool bptIndex fun token => (arena.tokenAddress token).any conn.contains

/-- The gate, when there is one and it is active. -/
def gateAdmitsRow (bptIndex : Option ℕ) : Bool :=
  match gate.filter GraphBuildGate.active with
  | none => true
  | some gate => rowHasReach arena pool gate bptIndex

def poolWorthCappedAttach : Bool :=
  gateAdmitsRow gate arena pool (rowBptIndex (arena.poolState pool.poolIndex) pool)

/-- The protocol of the row, or the one of the state's family when they disagree. -/
def healedProtocol (state : PoolState) : Option ProtocolType :=
  if protocolMatchesPoolState pool.protocol state then some pool.protocol
  else
    let healed := protocolFromPoolState state pool.protocol
    if protocolMatchesPoolState healed state then some healed else none

/-- The legs the state knows, or those of the row. -/
def routingTokenCount (state : PoolState) : ℕ :=
  match hubTokens state with
  | some tokens => tokens.length
  | none => pool.tokens.length

def rowInputDecimals (state : PoolState) : Option (ℕ × ℕ) := do
  let token0 ← routingTokenAtLeg arena state pool 0
  let token1 ← routingTokenAtLeg arena state pool 1
  some (arena.tokenDecimals token0, arena.tokenDecimals token1)

def poolHasAdmissibleEdges : Run Bool :=
  match arena.poolState pool.poolIndex with
  | none => some false
  | some state =>
      match healedProtocol pool state with
      | none => some false
      | some protocol =>
          let bptIndex := rowBptIndex (some state) pool
          (poolStateGraphEligible state protocol (routingTokenCount pool state) bptIndex pool.feeBps
            (rowInputDecimals arena pool state)).map fun eligible =>
              eligible && gateAdmitsRow gate arena pool bptIndex

end Gate

/-! ## What the passes ask -/

section Ask

variable {β : Type} (gate : Option (GraphBuildGate β)) (arena : StateArena)

/-- The gate as the attach passes ask it.  A check that panics ends the pass, so it admits nothing. -/
def attachGate : AttachGate where
  admissible arena pool := poolHasAdmissibleEdges gate arena pool = some true
  worthCapped arena pool := poolWorthCappedAttach gate arena pool
  isPolygonHubToken := isPolygonHubToken

def countGraphEligiblePoolsWithGate (pools : List PoolMeta) : Run ℕ :=
  (pools.mapM (poolHasAdmissibleEdges gate arena)).map (List.count true)

/-- Live edges on other tokens than the row's are as good as none. -/
def edgesMissing (graph : GraphStore) (pool : PoolMeta) : Bool :=
  if graph.poolHasLiveEdges pool.poolIndex then !poolDirectEdgesMatchMeta graph arena pool
  else !graph.poolHasEdges pool.poolIndex

/-- The rows are asked in order, up to the first that is missing. -/
def hasMissingEligiblePoolsWithGate (graph : GraphStore) : List PoolMeta → Run Bool
  | [] => some false
  | pool :: pools => do
      let admissible ← poolHasAdmissibleEdges gate arena pool
      if admissible && poolWorthCappedAttach gate arena pool && edgesMissing arena graph pool then
        some true
      else hasMissingEligiblePoolsWithGate graph pools

end Ask

section Answers

variable {β : Type} {gate : Option (GraphBuildGate β)} {arena : StateArena} {pool : PoolMeta}

lemma admissible_attachGate :
    (attachGate gate).admissible arena pool = true ↔ poolHasAdmissibleEdges gate arena pool = some true :=
  decide_eq_true_iff

/-- What an admitted row is: its state is eligible under the healed protocol and the gate lets it in. -/
lemma admissible_cases (h : poolHasAdmissibleEdges gate arena pool = some true) :
    ∃ state protocol, arena.poolState pool.poolIndex = some state ∧
      healedProtocol pool state = some protocol ∧
      poolStateGraphEligible state protocol (routingTokenCount pool state)
        (rowBptIndex (some state) pool) pool.feeBps (rowInputDecimals arena pool state) = some true ∧
      gateAdmitsRow gate arena pool (rowBptIndex (some state) pool) = true := by
  rw [poolHasAdmissibleEdges] at h
  cases hstate : arena.poolState pool.poolIndex with
  | none =>
      rw [hstate] at h
      cases h
  | some state =>
      rw [hstate] at h
      dsimp only at h
      cases hprotocol : healedProtocol pool state with
      | none =>
          rw [hprotocol] at h
          cases h
      | some protocol =>
          rw [hprotocol] at h
          rcases Option.map_eq_some_iff.mp h with ⟨eligible, heligible, hand⟩
          rw [(Bool.and_eq_true_iff.mp hand).1] at heligible
          exact ⟨state, protocol, rfl, hprotocol, heligible, (Bool.and_eq_true_iff.mp hand).2⟩

/-- The second question is part of the first. -/
lemma worthCapped_of_admissible (h : poolHasAdmissibleEdges gate arena pool = some true) :
    poolWorthCappedAttach gate arena pool = true := by
  rcases admissible_cases h with ⟨state, -, hstate, -, -, hgate⟩
  rw [poolWorthCappedAttach, hstate]
  exact hgate

/-- An eligible state is tradable. -/
lemma isTradable_of_admissible (h : poolHasAdmissibleEdges gate arena pool = some true) :
    ∃ state, arena.poolState pool.poolIndex = some state ∧ state.isTradable = true := by
  rcases admissible_cases h with ⟨state, protocol, hstate, -, heligible, -⟩
  refine ⟨state, hstate, Bool.eq_true_of_not_eq_false fun htradable => ?_⟩
  rw [poolStateGraphEligible.eq_def, if_pos (.inl htradable)] at heligible
  cases heligible

/-- A search that finds nothing has asked every row. -/
lemma hasMissing_eq_false_iff {graph : GraphStore} {pools : List PoolMeta} :
    hasMissingEligiblePoolsWithGate gate arena graph pools = some false ↔
      ∀ pool ∈ pools, ∃ admissible, poolHasAdmissibleEdges gate arena pool = some admissible ∧
        (admissible = true → edgesMissing arena graph pool = false) := by
  induction pools with
  | nil => simp [hasMissingEligiblePoolsWithGate]
  | cons pool pools ih =>
      rw [hasMissingEligiblePoolsWithGate, List.forall_mem_cons, ← ih]
      cases hcheck : poolHasAdmissibleEdges gate arena pool with
      | none => simp
      | some admissible =>
          cases admissible with
          | false => simp
          | true =>
              cases hmissing : edgesMissing arena graph pool <;>
                simp [worthCapped_of_admissible hcheck]

/-- The count, when every check answers. -/
lemma countGraphEligible_eq_some {pools : List PoolMeta} {n : ℕ} :
    countGraphEligiblePoolsWithGate gate arena pools = some n ↔
      (∀ pool ∈ pools, (poolHasAdmissibleEdges gate arena pool).isSome = true) ∧
        pools.countP ((attachGate gate).admissible arena) = n := by
  have hall : ∀ answers, pools.mapM (poolHasAdmissibleEdges gate arena) = some answers ↔
      (∀ pool ∈ pools, (poolHasAdmissibleEdges gate arena pool).isSome = true) ∧
        answers = pools.map ((attachGate gate).admissible arena) := by
    intro answers
    rw [Loop.mapM_eq_some]
    induction pools generalizing answers with
    | nil => simp
    | cons pool pools ih =>
        cases answers with
        | nil => simp
        | cons answer answers =>
            rw [List.forall₂_cons, ih, List.forall_mem_cons, List.map_cons, List.cons.injEq]
            cases hcheck : poolHasAdmissibleEdges gate arena pool with
            | none => simp
            | some admissible => cases admissible <;> cases answer <;> simp [attachGate, hcheck]
  rw [countGraphEligiblePoolsWithGate, Option.map_eq_some_iff]
  have hcount : (pools.map ((attachGate gate).admissible arena)).count true =
      pools.countP ((attachGate gate).admissible arena) := by
    simp [List.count_eq_countP, List.countP_map, Function.comp_def]
  constructor
  · rintro ⟨answers, hanswers, rfl⟩
    rcases (hall answers).mp hanswers with ⟨hsome, rfl⟩
    exact ⟨hsome, hcount.symm⟩
  · rintro ⟨hsome, rfl⟩
    exact ⟨_, (hall _).mpr ⟨hsome, rfl⟩, hcount⟩

end Answers

end PolygonArb

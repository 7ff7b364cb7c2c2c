import PolygonArb.Lib.KeyedPass
import PolygonArb.Pipeline.PoolLegs

/-!
# Does attaching what is missing leave nothing missing

A pool row is eligible by one family of checks (`poolHasAdmissibleEdges`) and gets its edges by another
(`attachEdges`).  The second asks for legs whose tokens the arena knows, for two different tokens, and
takes the state's word for the index of the pool's own token before the row's (`Attachable`); the first
asks for none of this.  A row that passes the first and not the second is missing after every pass, and
counted without ever having an edge (`attach_converges_iff`).
-/

namespace PolygonArb

open KeyedPass

/-! ## Rows that get edges -/

/-- Two funded legs with tokens of the arena for a hub; two different tokens of the arena with a
routable direction for a pair. -/
def AttachableTo (arena : StateArena) (pool : PoolMeta) (state : PoolState) : Prop :=
  if usesHubSpoke pool then 2 ≤ (fundedLegs arena pool state).length
  else pool.tokens.length = 2 ∧ (routingTokenAtLeg arena state pool 0).isSome = true ∧
    (routingTokenAtLeg arena state pool 1).isSome = true ∧
    routingTokenAtLeg arena state pool 0 ≠ routingTokenAtLeg arena state pool 1 ∧
    (state.hopPairRoutable 0 1 = true ∨ state.hopPairRoutable 1 0 = true)

instance (arena : StateArena) (pool : PoolMeta) (state : PoolState) :
    Decidable (AttachableTo arena pool state) := by
  unfold AttachableTo
  infer_instance

def Attachable (arena : StateArena) (pool : PoolMeta) : Prop :=
  ∃ state ∈ arena.poolState pool.poolIndex, AttachableTo arena pool state

instance (arena : StateArena) (pool : PoolMeta) : Decidable (Attachable arena pool) :=
  decidable_of_iff ((arena.poolState pool.poolIndex).any (AttachableTo arena pool ·) = true) (by
    simp [Attachable, Option.any_eq_true])

section Attach

variable {graph graph' : GraphStore} {arena : StateArena} {pool : PoolMeta} {state : PoolState}
  {index : PoolIndex}

lemma legsOf_pushHub (graph : GraphStore) (hub : VirtualPoolHub) :
    (pushHub graph hub).legsOf index = graph.legsOf index :=
  GraphStore.legsOf_congr fun node => GraphStore.edgesAt_pushHub graph hub node

lemma legsOf_foldl_pushEnterEdge (hubNode : ℕ) (legs : List (ℕ × TokenIndex)) (graph : GraphStore) :
    (legs.foldl (pushEnterEdge pool hubNode) graph).legsOf index =
      graph.legsOf index ∪ {leg | ∃ a ∈ legs, pool.poolIndex = index ∧ ⟨.enterPool, a.2, a.2, true⟩ = leg} :=
  GraphStore.legsOf_foldl_pushEdgeAt _ _ legs graph

lemma legsOf_foldl_pushExitEdge (hubNode : ℕ) (legs : List (ℕ × TokenIndex)) (graph : GraphStore) :
    (legs.foldl (pushExitEdge pool hubNode) graph).legsOf index =
      graph.legsOf index ∪ {leg | ∃ a ∈ legs, pool.poolIndex = index ∧ ⟨.exitPool, a.2, a.2, true⟩ = leg} :=
  GraphStore.legsOf_foldl_pushEdgeAt _ _ legs graph

lemma legsOf_foldl_pushDirectEdge (edges : List Edge) (graph : GraphStore) :
    (edges.foldl (pushDirectEdge arena) graph).legsOf index =
      graph.legsOf index ∪
        {leg | ∃ a ∈ edges, a.poolIndex = index ∧ ⟨.direct, a.tokenIn, a.tokenOut, false⟩ = leg} :=
  GraphStore.legsOf_foldl_pushEdgeAt _ _ edges graph

/-- What an attachment adds to a graph: fresh legs of the row's pool that lie on its tokens, and there
are some when the row is attachable. -/
structure AddsLegs (arena : StateArena) (pool : PoolMeta) (graph graph' : GraphStore) (added : Prop) :
    Prop where
  frame : ∀ index, index ≠ pool.poolIndex → graph'.legsOf index = graph.legsOf index
  some : added → (graph'.legsOf pool.poolIndex).Nonempty
  none : ¬ added → graph'.legsOf pool.poolIndex = graph.legsOf pool.poolIndex
  onRow : graph.legsOf pool.poolIndex = ∅ → OnRow arena pool (graph'.legsOf pool.poolIndex)

lemma onRow_empty : OnRow arena pool ∅ := .inr fun _ h => absurd h (Set.notMem_empty _)

lemma addsLegs_hub : AddsLegs arena pool graph (attachHubSpokePool graph arena pool state)
    (2 ≤ (fundedLegs arena pool state).length) := by
  rw [attachHubSpokePool]
  dsimp only
  by_cases hfew : (fundedLegs arena pool state).length < 2
  · rw [if_pos hfew]
    exact ⟨fun _ _ => rfl, fun hmany => absurd hmany (not_le.mpr hfew), fun _ => rfl,
      fun hempty => hempty ▸ onRow_empty⟩
  rw [if_neg hfew]
  have hne : fundedLegs arena pool state ≠ [] := by
    intro hnil
    rw [hnil] at hfew
    exact hfew Nat.zero_lt_two
  rcases List.exists_mem_of_ne_nil _ hne with ⟨first, hfirst⟩
  by_cases hv4 : pool.protocol = .uniswapV4
  · rw [if_pos hv4]
    have hsame : ∀ index, (ensureV4SingletonHub graph).2.legsOf index = graph.legsOf index := by
      intro index
      rw [ensureV4SingletonHub]
      split
      · rfl
      · exact legsOf_pushHub graph ⟨0, .uniswapV4, []⟩
    refine ⟨fun index hindex => ?_, fun _ => ?_, fun hmany => absurd (not_lt.mp hfew) hmany, fun hempty => .inr ?_⟩
    · rw [legsOf_foldl_pushEnterEdge, hsame]
      simp [Ne.symm hindex]
    · rw [legsOf_foldl_pushEnterEdge]
      exact ⟨_, .inr ⟨first, hfirst, rfl, rfl⟩⟩
    · rw [legsOf_foldl_pushEnterEdge, hsame, hempty]
      rintro _ (hold | ⟨_, -, -, rfl⟩) hdirect
      · cases hold
      · cases hdirect
  · rw [if_neg hv4, ensurePerPoolHub]
    refine ⟨fun index hindex => ?_, fun _ => ?_, fun hmany => absurd (not_lt.mp hfew) hmany, fun hempty => .inr ?_⟩
    · rw [legsOf_foldl_pushExitEdge, legsOf_foldl_pushEnterEdge, legsOf_pushHub]
      simp [Ne.symm hindex]
    · rw [legsOf_foldl_pushExitEdge]
      exact ⟨_, .inr ⟨first, hfirst, rfl, rfl⟩⟩
    · rw [legsOf_foldl_pushExitEdge, legsOf_foldl_pushEnterEdge, legsOf_pushHub, hempty]
      rintro _ ((hold | ⟨_, -, -, rfl⟩) | ⟨_, -, -, rfl⟩) hdirect
      · cases hold
      · cases hdirect
      · cases hdirect

lemma edgesForPair_eq_nil_iff {poolIndex : PoolIndex} {protocol : ProtocolType}
    {token0 token1 : TokenIndex} {feeBps : ℕ} :
    edgesForPair poolIndex protocol token0 token1 feeBps state = [] ↔
      ¬ (state.hopPairRoutable 0 1 = true ∨ state.hopPairRoutable 1 0 = true) := by
  rw [edgesForPair]
  by_cases hforth : state.hopPairRoutable 0 1 = true <;>
    by_cases hback : state.hopPairRoutable 1 0 = true <;> simp [hforth, hback]

/-- The edges of a pair are of its pool and between its tokens. -/
lemma mem_edgesForPair {poolIndex : PoolIndex} {protocol : ProtocolType} {token0 token1 : TokenIndex}
    {feeBps : ℕ} {edge : Edge}
    (h : edge ∈ edgesForPair poolIndex protocol token0 token1 feeBps state) :
    edge.poolIndex = poolIndex ∧ (edge.tokenIn = token0 ∧ edge.tokenOut = token1 ∨
      edge.tokenIn = token1 ∧ edge.tokenOut = token0) := by
  rw [edgesForPair] at h
  rcases List.mem_append.mp h with h | h
  · split_ifs at h
    · rw [List.mem_singleton.mp h]
      exact ⟨rfl, .inl ⟨rfl, rfl⟩⟩
    · cases h
  · split_ifs at h
    · rw [List.mem_singleton.mp h]
      exact ⟨rfl, .inr ⟨rfl, rfl⟩⟩
    · cases h

/-- The first two legs of a row are tokens its direct edges may lie on. -/
lemma onRowTokens_of_leg {leg : ℕ} {token : TokenIndex}
    (hstate : arena.poolState pool.poolIndex = some state) (hleg : leg ∈ [0, 1])
    (htoken : routingTokenAtLeg arena state pool leg = some token) :
    onRowTokens arena pool token = true := by
  rw [onRowTokens, hstate]
  refine List.any_eq_true.mpr ⟨token, List.mem_append_right _ ?_, by simp⟩
  exact List.mem_filterMap.mpr ⟨leg, hleg, htoken⟩

lemma addsLegs_pair {protocol : ProtocolType} {token0 token1 : TokenIndex} {feeBps : ℕ}
    (h0 : onRowTokens arena pool token0 = true) (h1 : onRowTokens arena pool token1 = true) :
    AddsLegs arena pool graph
      ((edgesForPair pool.poolIndex protocol token0 token1 feeBps state).foldl (pushDirectEdge arena) graph)
      (state.hopPairRoutable 0 1 = true ∨ state.hopPairRoutable 1 0 = true) := by
  refine ⟨fun index hindex => ?_, fun hroutable => ?_, fun hnone => ?_, fun hempty => .inr ?_⟩
  · rw [legsOf_foldl_pushDirectEdge, Set.union_eq_left]
    rintro _ ⟨edge, hedge, hpool, -⟩
    exact absurd (hpool.symm.trans (mem_edgesForPair hedge).1) hindex
  · have hne : edgesForPair pool.poolIndex protocol token0 token1 feeBps state ≠ [] :=
      fun hnil => edgesForPair_eq_nil_iff.mp hnil hroutable
    rcases List.exists_mem_of_ne_nil _ hne with ⟨edge, hedge⟩
    rw [legsOf_foldl_pushDirectEdge]
    exact ⟨_, .inr ⟨edge, hedge, (mem_edgesForPair hedge).1, rfl⟩⟩
  · rw [edgesForPair_eq_nil_iff.mpr hnone, List.foldl_nil]
  · rw [legsOf_foldl_pushDirectEdge, hempty, Set.empty_union]
    rintro _ ⟨edge, hedge, -, rfl⟩ -
    rcases (mem_edgesForPair hedge).2 with ⟨hin, hout⟩ | ⟨hin, hout⟩ <;> simp [hin, hout, h0, h1]

/-- A row that is not attachable gets nothing, and the others get legs. -/
lemma attachEdges_spec (hstate : arena.poolState pool.poolIndex = some state) :
    (attachEdges graph arena pool state = none ∧ ¬ AttachableTo arena pool state) ∨
      ∃ attached, attachEdges graph arena pool state = some attached ∧
        AddsLegs arena pool graph attached (AttachableTo arena pool state) := by
  rw [attachEdges, AttachableTo]
  by_cases hspoke : usesHubSpoke pool = true
  · rw [if_pos hspoke, if_pos hspoke]
    exact .inr ⟨_, rfl, addsLegs_hub⟩
  rw [if_neg hspoke, if_neg hspoke]
  by_cases hpair : pool.tokens.length = 2
  swap
  · rw [if_neg hpair]
    exact .inl ⟨rfl, fun h => hpair h.1⟩
  rw [if_pos hpair]
  cases h0 : routingTokenAtLeg arena state pool 0 with
  | none => exact .inl ⟨rfl, by simp⟩
  | some token0 =>
      cases h1 : routingTokenAtLeg arena state pool 1 with
      | none => exact .inl ⟨rfl, by simp⟩
      | some token1 =>
          simp only [Option.bind_eq_bind, Option.bind_some]
          by_cases hsame : token0 = token1
          · rw [if_pos hsame]
            exact .inl ⟨rfl, by simp [hsame]⟩
          · rw [if_neg hsame]
            refine .inr ⟨_, rfl, ?_⟩
            have hadds : ∀ protocol, AddsLegs arena pool graph
                ((edgesForPair pool.poolIndex protocol token0 token1 pool.feeBps state).foldl
                  (pushDirectEdge arena) graph)
                (state.hopPairRoutable 0 1 = true ∨ state.hopPairRoutable 1 0 = true) := fun protocol =>
              addsLegs_pair (onRowTokens_of_leg hstate (by simp) h0) (onRowTokens_of_leg hstate (by simp) h1)
            simpa [hpair, hsame] using hadds _

end Attach

/-! ## One row -/

section Row

variable {β : Type} {gate : Option (GraphBuildGate β)} {graph : GraphStore} {arena : StateArena}
  {pool : PoolMeta}

/-- Eligible, and with edges to give. -/
def Wanted (gate : Option (GraphBuildGate β)) (arena : StateArena) (pool : PoolMeta) : Prop :=
  poolHasAdmissibleEdges gate arena pool = some true ∧ Attachable arena pool

/-- The legs of a row's pool are made anew: some that lie on its tokens, or none. -/
structure Renews (gate : Option (GraphBuildGate β)) (arena : StateArena) (pool : PoolMeta)
    (graph : GraphStore) (result : Bool × GraphStore) : Prop where
  frame : ∀ index, index ≠ pool.poolIndex → result.2.legsOf index = graph.legsOf index
  wanted : Wanted gate arena pool → result.1 = true ∧ (result.2.legsOf pool.poolIndex).Nonempty ∧
    OnRow arena pool (result.2.legsOf pool.poolIndex)
  unwanted : ¬ Wanted gate arena pool → result.1 = false ∧ result.2.legsOf pool.poolIndex = ∅

/-- Nothing is attached. -/
lemma renews_of_unwanted {graph' : GraphStore} (hframe : ∀ index, graph'.legsOf index = graph.legsOf index)
    (hempty : graph.legsOf pool.poolIndex = ∅) (h : ¬ Wanted gate arena pool) :
    Renews gate arena pool graph (false, graph') :=
  ⟨fun index _ => hframe index, fun hwanted => absurd hwanted h,
    fun _ => ⟨rfl, (hframe _).trans hempty⟩⟩

lemma Renews.of_frame {graph' : GraphStore} {result : Bool × GraphStore}
    (hframe : ∀ index, index ≠ pool.poolIndex → graph'.legsOf index = graph.legsOf index)
    (h : Renews gate arena pool graph' result) : Renews gate arena pool graph result :=
  ⟨fun index hindex => (h.frame index hindex).trans (hframe index hindex), h.wanted, h.unwanted⟩

lemma attachAbsent_renews (hsound : graph.Sound) (hreg : Registered arena pool)
    (hempty : graph.legsOf pool.poolIndex = ∅) :
    Renews gate arena pool graph (attachAbsentPool (attachGate gate) graph arena pool) := by
  have hwithout : graph.Without pool.poolIndex := by
    rw [GraphStore.without_iff hsound.indexed, ← GraphStore.poolHasEdges_iff]
    refine Bool.eq_false_of_not_eq_true fun hedges => ?_
    have hsome := hsound.indexed.poolHasEdges_iff.mp hedges
    rw [hempty] at hsome
    exact Set.not_nonempty_empty hsome
  have hresult := hsound.attachAbsent (attachGate gate) hreg hwithout
  rw [attachAbsentPool] at hresult ⊢
  by_cases hadmissible : poolHasAdmissibleEdges gate arena pool = some true
  swap
  · have hrefused : (attachGate gate).admissible arena pool = false :=
      Bool.eq_false_of_not_eq_true fun h => hadmissible (admissible_attachGate.mp h)
    have hnone := renews_of_unwanted (fun _ => rfl) hempty fun h : Wanted gate arena pool =>
      hadmissible h.1
    cases (arena.poolState pool.poolIndex).filter PoolState.isTradable with
    | none => exact hnone
    | some state => simpa [hrefused] using hnone
  rcases isTradable_of_admissible hadmissible with ⟨state, hstate, htradable⟩
  have hfound : (arena.poolState pool.poolIndex).filter PoolState.isTradable = some state := by
    simp [hstate, htradable]
  have hwanted : Wanted gate arena pool ↔ AttachableTo arena pool state := by
    refine ⟨fun h => ?_, fun h => ⟨hadmissible, state, hstate, h⟩⟩
    rcases h.2 with ⟨_, hstate', hto⟩
    rw [hstate] at hstate'
    cases hstate'
    exact hto
  rw [hfound] at hresult ⊢
  simp only [admissible_attachGate.mpr hadmissible, Bool.not_true, Bool.false_eq_true, if_false] at hresult ⊢
  have hgrow : ∀ index, (graph.ensureTokenCapacity arena.tokenCount).legsOf index = graph.legsOf index :=
    fun index => hsound.laidOut.legsOf_grow arena.tokenCount
  rcases @attachEdges_spec (graph.ensureTokenCapacity arena.tokenCount) arena pool state hstate with
    ⟨hnone, hnot⟩ | ⟨attached, hattached, hadds⟩
  · rw [hnone]
    exact renews_of_unwanted hgrow hempty (hnot ∘ hwanted.mp)
  · rw [hattached] at hresult ⊢
    have hindexed : attached.Indexed := hresult.indexed
    refine ⟨fun index hindex => (hadds.frame index hindex).trans (hgrow index), fun h => ?_, fun h => ?_⟩
    · have hsome := hadds.some (hwanted.mp h)
      exact ⟨hindexed.poolHasEdges_iff.mpr hsome, hsome, hadds.onRow ((hgrow _).trans hempty)⟩
    · have hnone : attached.legsOf pool.poolIndex = ∅ :=
        (hadds.none fun hto => h (hwanted.mpr hto)).trans ((hgrow _).trans hempty)
      refine ⟨Bool.eq_false_of_not_eq_true fun hedges => ?_, hnone⟩
      have hsome := hindexed.poolHasEdges_iff.mp hedges
      rw [hnone] at hsome
      exact Set.not_nonempty_empty hsome

/-- LegsSettled legs are left alone. -/
lemma attachPool_of_settled (hindexed : graph.Indexed)
    (hsettled : LegsSettled arena pool (graph.legsOf pool.poolIndex)) :
    attachPoolToGraph (attachGate gate) graph arena pool = (false, graph) := by
  rw [attachPoolToGraph]
  by_cases hlive : graph.poolHasLiveEdges pool.poolIndex = true
  · have honRow := hsettled.2 (hindexed.poolHasLiveEdges_iff.mp hlive)
    rw [if_pos hlive, if_pos (hindexed.poolDirectEdgesMatchMeta_iff.mpr honRow)]
  · rw [if_neg hlive, if_pos (hindexed.poolHasEdges_iff.mpr hsettled.1)]

lemma attachPool_renews (hsound : graph.Sound) (hreg : Registered arena pool)
    (hunsettled : ¬ LegsSettled arena pool (graph.legsOf pool.poolIndex)) :
    Renews gate arena pool graph (attachPoolToGraph (attachGate gate) graph arena pool) := by
  have hindexed := hsound.indexed
  rw [attachPoolToGraph]
  by_cases hlive : graph.poolHasLiveEdges pool.poolIndex = true
  · have hsome : (graph.legsOf pool.poolIndex).Nonempty := by
      rcases hindexed.poolHasLiveEdges_iff.mp hlive with ⟨leg, hleg, -⟩
      exact ⟨leg, hleg⟩
    have hstale : ¬ poolDirectEdgesMatchMeta graph arena pool = true := fun hmatch =>
      hunsettled ⟨hsome, fun _ => hindexed.poolDirectEdgesMatchMeta_iff.mp hmatch⟩
    rw [if_pos hlive, if_neg hstale]
    exact (attachAbsent_renews (hsound.removePool _).1 hreg hindexed.legsOf_removePool_self).of_frame
      fun index hindex => hindexed.legsOf_removePool_of_ne hindex
  · rw [if_neg hlive]
    by_cases hedges : graph.poolHasEdges pool.poolIndex = true
    · exact absurd ⟨hindexed.poolHasEdges_iff.mp hedges,
        fun h => absurd (hindexed.poolHasLiveEdges_iff.mpr h) hlive⟩ hunsettled
    · rw [if_neg hedges]
      refine attachAbsent_renews hsound hreg (Set.not_nonempty_iff_eq_empty.mp fun hsome => ?_)
      exact hedges (hindexed.poolHasEdges_iff.mpr hsome)

end Row

/-! ## A pass -/

section Pass

variable {β : Type} {gate : Option (GraphBuildGate β)} {graph : GraphStore} {arena : StateArena}
  {pool : PoolMeta} {pools : List PoolMeta}

/-- A build makes unsettled legs anew. -/
def BuildEffect (gate : Option (GraphBuildGate β)) (arena : StateArena) (pool : PoolMeta)
    (before after : Set Leg) : Prop :=
  (LegsSettled arena pool before → after = before) ∧ (¬ LegsSettled arena pool before →
    (Wanted gate arena pool → after.Nonempty ∧ OnRow arena pool after) ∧
      (¬ Wanted gate arena pool → after = ∅))

lemma buildStep (hreg : Registered arena pool) :
    KeyedStep (fun graph pool => (attachPoolToGraph (attachGate gate) graph arena pool).2)
      PoolMeta.poolIndex GraphStore.legsOf (BuildEffect gate arena) GraphStore.Sound (fun _ => True) pool where
  keeps graph hsound := hsound.attachPool _ hreg
  wasOpen _ _ := trivial
  own graph hsound _ := by
    refine ⟨fun hsettled => ?_, fun hunsettled => ?_⟩
    · rw [attachPool_of_settled hsound.indexed hsettled]
    · have hrenews := @attachPool_renews _ gate _ _ _ hsound hreg hunsettled
      exact ⟨fun h => (hrenews.wanted h).2, fun h => (hrenews.unwanted h).2⟩
  frame graph index hsound hindex := by
    by_cases hsettled : LegsSettled arena pool (graph.legsOf pool.poolIndex)
    · rw [attachPool_of_settled hsound.indexed hsettled]
    · exact (attachPool_renews hsound hreg hsettled).frame index hindex

/-- The legs of a pool, and whether the batch has attached it. -/
def observed (batch : GraphStore × List PoolIndex) (index : PoolIndex) : Set Leg × Prop :=
  (batch.1.legsOf index, index ∈ batch.2)

/-- A batch makes the unsettled legs anew of the rows that are worth it. -/
def BatchEffect (gate : Option (GraphBuildGate β)) (arena : StateArena) (pool : PoolMeta)
    (before after : Set Leg × Prop) : Prop :=
  (poolWorthCappedAttach gate arena pool = false ∨ LegsSettled arena pool before.1 → after = before) ∧
  (poolWorthCappedAttach gate arena pool = true → ¬ LegsSettled arena pool before.1 →
    (Wanted gate arena pool → after.1.Nonempty ∧ OnRow arena pool after.1) ∧
      (¬ Wanted gate arena pool → after.1 = ∅))

lemma tryAttach_cases (attachGate : AttachGate) (arena : StateArena) (graph : GraphStore)
    (attached : List PoolIndex) (pool : PoolMeta) :
    tryAttachMissingPool attachGate arena (graph, attached) pool =
      if attachMissingCap ≤ attached.length then (graph, attached)
      else if attachGate.worthCapped arena pool = false then (graph, attached)
      else if edgesMissing arena graph pool = false then (graph, attached)
      else
        let cleared :=
          if graph.poolHasLiveEdges pool.poolIndex then removePoolEdgesFromGraph graph pool.poolIndex
          else graph
        let result := attachPoolToGraph attachGate cleared arena pool
        (result.2, if result.1 then attached ++ [pool.poolIndex] else attached) := by
  rw [tryAttachMissingPool, edgesMissing]
  cases graph.poolHasLiveEdges pool.poolIndex <;> cases graph.poolHasEdges pool.poolIndex <;>
    cases poolDirectEdgesMatchMeta graph arena pool <;> cases attachGate.worthCapped arena pool <;> rfl

/-- Stale edges go before the row is attached. -/
lemma tryAttach_renews {attached : List PoolIndex} (hsound : graph.Sound) (hreg : Registered arena pool)
    (hroom : attached.length < attachMissingCap) (hworth : poolWorthCappedAttach gate arena pool = true)
    (hunsettled : ¬ LegsSettled arena pool (graph.legsOf pool.poolIndex)) :
    ∃ result, Renews gate arena pool graph result ∧
      tryAttachMissingPool (attachGate gate) arena (graph, attached) pool =
        (result.2, if result.1 then attached ++ [pool.poolIndex] else attached) := by
  have hindexed := hsound.indexed
  have hmissing : ¬ edgesMissing arena graph pool = false := fun h =>
    hunsettled (hindexed.edgesMissing_eq_false_iff.mp h)
  have hworth' : ¬ (attachGate gate).worthCapped arena pool = false := by
    rw [show (attachGate gate).worthCapped arena pool = true from hworth]
    simp
  rw [tryAttach_cases, if_neg (not_le.mpr hroom), if_neg hworth', if_neg hmissing]
  refine ⟨_, ?_, rfl⟩
  split_ifs with hlive
  · have hcleared : (removePoolEdgesFromGraph graph pool.poolIndex).legsOf pool.poolIndex = ∅ :=
      hindexed.legsOf_removePool_self
    have hagain : ¬ LegsSettled arena pool
        ((removePoolEdgesFromGraph graph pool.poolIndex).legsOf pool.poolIndex) := by
      rw [hcleared]
      exact not_legsSettled_empty arena pool
    exact (attachPool_renews (hsound.removePool _).1 hreg hagain).of_frame
      fun index hindex => hindexed.legsOf_removePool_of_ne hindex
  · exact attachPool_renews hsound hreg hunsettled

lemma tryAttach_unchanged {attached : List PoolIndex} (hsound : graph.Sound)
    (h : poolWorthCappedAttach gate arena pool = false ∨
      LegsSettled arena pool (graph.legsOf pool.poolIndex)) :
    tryAttachMissingPool (attachGate gate) arena (graph, attached) pool = (graph, attached) := by
  rw [tryAttach_cases]
  rcases h with hworth | hsettled
  · rw [show (attachGate gate).worthCapped arena pool = false from hworth, if_pos rfl, ite_self]
  · rw [if_pos (hsound.indexed.edgesMissing_eq_false_iff.mpr hsettled), ite_self, ite_self]

lemma length_tryAttach (attachGate : AttachGate) (batch : GraphStore × List PoolIndex) :
    batch.2.length ≤ (tryAttachMissingPool attachGate arena batch pool).2.length := by
  rcases batch with ⟨graph, attached⟩
  rw [tryAttach_cases]
  dsimp only
  split_ifs <;> simp

lemma batchStep (hreg : Registered arena pool) :
    KeyedStep (tryAttachMissingPool (attachGate gate) arena) PoolMeta.poolIndex observed
      (BatchEffect gate arena) (fun batch => batch.1.Sound)
      (fun batch => batch.2.length < attachMissingCap) pool where
  keeps batch hsound := hsound.tryAttach _ batch.2 hreg
  wasOpen batch hroom := (length_tryAttach _ batch).trans_lt hroom
  own batch hsound hroom := by
    rcases batch with ⟨graph, attached⟩
    refine ⟨fun h => by rw [tryAttach_unchanged hsound h], fun hworth hunsettled => ?_⟩
    rcases tryAttach_renews hsound hreg hroom hworth hunsettled with ⟨result, hrenews, heq⟩
    rw [heq]
    exact ⟨fun h => (hrenews.wanted h).2, fun h => (hrenews.unwanted h).2⟩
  frame batch index hsound hindex := by
    rcases batch with ⟨graph, attached⟩
    by_cases hroom : attached.length < attachMissingCap
    swap
    · rw [tryAttach_cases, if_pos (not_lt.mp hroom)]
    by_cases hkept : poolWorthCappedAttach gate arena pool = false ∨
        LegsSettled arena pool (graph.legsOf pool.poolIndex)
    · rw [tryAttach_unchanged hsound hkept]
    rw [not_or, Bool.not_eq_false] at hkept
    rcases tryAttach_renews hsound hreg hroom hkept.1 hkept.2 with ⟨result, hrenews, heq⟩
    rw [heq, observed, observed, hrenews.frame index hindex]
    congr 1
    split_ifs
    · simp [hindex]
    · rfl

/-- The rows that touch a hub and then the others are the rows in another order. -/
lemma attachMissingBatch_eq (attachGate : AttachGate) (arena : StateArena) (graph : GraphStore)
    (pools : List PoolMeta) :
    ∃ ordered : List PoolMeta, ordered.Perm pools ∧ attachMissingBatch attachGate arena graph pools =
      ordered.foldl (tryAttachMissingPool attachGate arena)
        (graph.ensureTokenCapacity arena.tokenCount, []) := by
  refine ⟨_, ?_, (List.foldl_append ..).symm⟩
  simpa using List.filter_append_perm (fun pool => poolTouchesHub attachGate arena pool) pools

/-- What a batch with room left does to the row of a pool. -/
lemma batch_effect (hsound : graph.Sound) (hreg : ∀ pool ∈ pools, Registered arena pool)
    (hdistinct : (pools.map PoolMeta.poolIndex).Nodup)
    (hroom : (attachMissingBatch (attachGate gate) arena graph pools).2.length < attachMissingCap)
    (hpool : pool ∈ pools) :
    BatchEffect gate arena pool (graph.legsOf pool.poolIndex, False)
      (observed (attachMissingBatch (attachGate gate) arena graph pools) pool.poolIndex) := by
  rcases attachMissingBatch_eq (attachGate gate) arena graph pools with ⟨ordered, hperm, heq⟩
  rw [heq] at hroom ⊢
  have hsteps : ∀ row ∈ ordered, KeyedStep (tryAttachMissingPool (attachGate gate) arena)
      PoolMeta.poolIndex observed (BatchEffect gate arena) (fun batch => batch.1.Sound)
      (fun batch => batch.2.length < attachMissingCap) row :=
    fun row hrow => batchStep (hreg row (hperm.mem_iff.mp hrow))
  have hnodup : (ordered.map PoolMeta.poolIndex).Nodup :=
    ((hperm.map PoolMeta.poolIndex).nodup_iff).mpr hdistinct
  have heffect := foldl_mem hsteps hnodup (hsound.grow arena.tokenCount) hroom (hperm.mem_iff.mpr hpool)
  have hstart : observed (graph.ensureTokenCapacity arena.tokenCount, []) pool.poolIndex =
      (graph.legsOf pool.poolIndex, False) := by
    rw [observed, hsound.laidOut.legsOf_grow]
    simp
  rw [hstart] at heffect
  exact heffect

lemma batch_sound (hsound : graph.Sound) (hreg : ∀ pool ∈ pools, Registered arena pool) :
    (attachMissingBatch (attachGate gate) arena graph pools).1.Sound := by
  rcases attachMissingBatch_eq (attachGate gate) arena graph pools with ⟨ordered, hperm, heq⟩
  rw [heq]
  exact GraphStore.Sound.foldl_tryAttach _ (fun pool hpool => hreg pool (hperm.mem_iff.mp hpool))
    (hsound.grow arena.tokenCount)

/-- After a pass with room left, exactly the rows are settled that were or that are wanted. -/
lemma attachMissing_settled_iff {order : RoutingGraph → List Incidence} {after : GraphStore}
    (hsound : graph.Sound) (hreg : ∀ pool ∈ pools, Registered arena pool)
    (hdistinct : (pools.map PoolMeta.poolIndex).Nodup)
    (hroom : (attachMissingBatch (attachGate gate) arena graph pools).2.length < attachMissingCap)
    (hstep : attachMissingEligiblePools order (attachGate gate) arena graph pools = some after)
    (hpool : pool ∈ pools) (hadmissible : poolHasAdmissibleEdges gate arena pool = some true) :
    LegsSettled arena pool (after.legsOf pool.poolIndex) ↔
      LegsSettled arena pool (graph.legsOf pool.poolIndex) ∨ Attachable arena pool := by
  have heffect := batch_effect hsound hreg hdistinct hroom hpool
  have hbatch := @batch_sound _ gate _ _ _ hsound hreg
  have hworth := worthCapped_of_admissible hadmissible
  set batch := attachMissingBatch (attachGate gate) arena graph pools with hbatchDef
  -- the rescore that ends the pass
  have hafter : Leg.way '' after.legsOf pool.poolIndex = Leg.way '' batch.1.legsOf pool.poolIndex ∧
      (AnyLive (after.legsOf pool.poolIndex) →
        pool.poolIndex ∈ batch.2 ∨ AnyLive (batch.1.legsOf pool.poolIndex)) := by
    rw [attachMissingEligiblePools, ← hbatchDef] at hstep
    dsimp only at hstep
    split_ifs at hstep with hnone
    · cases hstep
      exact ⟨rfl, .inr⟩
    · rcases Option.map_eq_some_iff.mp hstep with ⟨rescored, hrescored, rfl⟩
      have hlegs := @legs_rescorePools _ _ _ _ _ pool.poolIndex hbatch hrescored
      exact hlegs
  rcases hafter with ⟨hway, hlive⟩
  have hnonempty := nonempty_of_image_way hway
  by_cases hsettled : LegsSettled arena pool (graph.legsOf pool.poolIndex)
  · have hsame := heffect.1 (.inr hsettled)
    rw [observed, Prod.mk.injEq] at hsame
    rw [hsame.1] at hway hlive hnonempty
    refine iff_of_true ⟨hnonempty.mpr hsettled.1, fun h => ?_⟩ (.inl hsettled)
    rcases hlive h with hattached | hbefore
    · exact absurd hattached (by rw [hsame.2]; exact id)
    · exact (hsettled.2 hbefore).of_image_way hway
  · rw [or_iff_right hsettled]
    have hnew := heffect.2 hworth hsettled
    constructor
    · intro h
      by_contra hnot
      have hempty : batch.1.legsOf pool.poolIndex = ∅ := hnew.2 fun hwanted => hnot hwanted.2
      rw [hempty] at hnonempty
      exact Set.not_nonempty_empty (hnonempty.mp h.1)
    · intro hattachable
      rcases hnew.1 ⟨hadmissible, hattachable⟩ with ⟨hsome, honRow⟩
      exact ⟨hnonempty.mpr hsome, fun _ => honRow.of_image_way hway⟩

end Pass

/-! ## The graph after a build -/

section Build

variable {β : Type} {gate : Option (GraphBuildGate β)} {arena : StateArena} {pool : PoolMeta}
  {pools : List PoolMeta} {order : RoutingGraph → List Incidence} {built : GraphStore}

instance : Decidable (Wanted gate arena pool) := by
  unfold Wanted
  infer_instance

/-- The pools with an edge, live or dead. -/
def poolsWithEdges (graph : GraphStore) : ℕ :=
  (List.range graph.poolEdgePositions.length).countP graph.poolHasEdges

lemma buildSteps (hreg : ∀ pool ∈ pools, Registered arena pool) :
    ∀ row ∈ pools, KeyedStep (fun graph pool => (attachPoolToGraph (attachGate gate) graph arena pool).2)
      PoolMeta.poolIndex GraphStore.legsOf (BuildEffect gate arena) GraphStore.Sound (fun _ => True) row :=
  fun row hrow => buildStep (hreg row hrow)

lemma buildGraph_spec (hreg : ∀ pool ∈ pools, Registered arena pool)
    (hbuild : buildGraph order (attachGate gate) arena pools = some built) :
    built.Sound ∧ ∀ index, (built.legsOf index).Nonempty ↔
      ((pools.foldl (fun graph pool => (attachPoolToGraph (attachGate gate) graph arena pool).2)
        (GraphStore.new arena.tokenCount)).legsOf index).Nonempty := by
  have hsound := foldl_good (@buildSteps _ gate _ _ hreg) (GraphStore.sound_new arena.tokenCount)
  rw [buildGraph] at hbuild
  rcases Option.map_eq_some_iff.mp hbuild with ⟨rescored, hrescored, rfl⟩
  refine ⟨(hsound.rescoreGraph hrescored).withCaches _ _, fun index => ?_⟩
  have hway := @legs_rescoreGraph _ _ _ _ index hrescored
  exact nonempty_of_image_way hway

lemma legsOf_new (tokenCount : ℕ) (index : PoolIndex) :
    (GraphStore.new tokenCount).legsOf index = ∅ := by
  refine Set.eq_empty_of_forall_notMem ?_
  rintro _ ⟨node, ge, hge, -⟩
  rw [GraphStore.edgesAt_new] at hge
  cases hge

/-- After a build the pools with edges are those of the wanted rows. -/
lemma buildGraph_nonempty_iff (hreg : ∀ pool ∈ pools, Registered arena pool)
    (hdistinct : (pools.map PoolMeta.poolIndex).Nodup)
    (hbuild : buildGraph order (attachGate gate) arena pools = some built) (index : PoolIndex) :
    (built.legsOf index).Nonempty ↔ ∃ pool ∈ pools, Wanted gate arena pool ∧ pool.poolIndex = index := by
  have hsteps := @buildSteps _ gate _ _ hreg
  have hstart := GraphStore.sound_new arena.tokenCount
  rw [(buildGraph_spec hreg hbuild).2]
  constructor
  · intro hsome
    by_cases hindex : index ∈ pools.map PoolMeta.poolIndex
    · rcases List.mem_map.mp hindex with ⟨pool, hpool, rfl⟩
      have heffect := foldl_mem hsteps hdistinct hstart trivial hpool
      rw [BuildEffect, legsOf_new] at heffect
      refine ⟨pool, hpool, ?_, rfl⟩
      by_contra hunwanted
      rw [(heffect.2 (not_legsSettled_empty arena pool)).2 hunwanted] at hsome
      exact Set.not_nonempty_empty hsome
    · rw [foldl_notMem hsteps hstart hindex, legsOf_new] at hsome
      exact absurd hsome Set.not_nonempty_empty
  · rintro ⟨pool, hpool, hwanted, rfl⟩
    have heffect := foldl_mem hsteps hdistinct hstart trivial hpool
    rw [BuildEffect, legsOf_new] at heffect
    exact ((heffect.2 (not_legsSettled_empty arena pool)).1 hwanted).1

lemma poolsWithEdges_buildGraph (hreg : ∀ pool ∈ pools, Registered arena pool)
    (hdistinct : (pools.map PoolMeta.poolIndex).Nodup)
    (hbuild : buildGraph order (attachGate gate) arena pools = some built) :
    poolsWithEdges built = pools.countP (Wanted gate arena ·) := by
  have hindexed := (buildGraph_spec hreg hbuild).1.indexed
  have hmem := buildGraph_nonempty_iff hreg hdistinct hbuild
  rw [poolsWithEdges, List.countP_eq_length_filter, List.countP_eq_length_filter,
    ← List.length_map PoolMeta.poolIndex]
  refine List.Perm.length_eq ((List.perm_ext_iff_of_nodup (List.nodup_range.filter _)
    (hdistinct.sublist (List.filter_sublist.map _))).mpr fun index => ?_)
  have hslot : built.poolHasEdges index = true → index < built.poolEdgePositions.length := by
    intro hedges
    rcases hindexed.poolHasEdges_iff.mp hedges with ⟨_, node, ge, hge, rfl, -⟩
    exact hindexed.slotted node ge.place (List.mem_map.mpr ⟨ge, hge, rfl⟩)
  rw [List.mem_filter, List.mem_range, and_iff_right_of_imp hslot, hindexed.poolHasEdges_iff, hmem,
    List.mem_map]
  simp [List.mem_filter, and_assoc]

end Build

/-! ## What is left missing -/

/-- The graphs the pipeline can hold: every step may come with another gate. -/
def HeldGraph (order : RoutingGraph → List Incidence) : GraphStore → Prop :=
  Transition.Reachable (fun graph (step : AttachGate × GraphOp) => graphStep order step.1 graph step.2)
    (fun _ step => step.2.Registered) IsNewGraph

lemma HeldGraph.sound {order : RoutingGraph → List Incidence} {graph : GraphStore}
    (h : HeldGraph order graph) : graph.Sound := by
  refine h.inv GraphStore.Sound ?_ fun _ step _ hsound hop hstep => hsound.step hop hstep
  rintro _ ⟨tokenCount, rfl⟩
  exact GraphStore.sound_new tokenCount

section Converges

variable {β : Type} {gate : Option (GraphBuildGate β)} {arena : StateArena} {pools : List PoolMeta}
  {order : RoutingGraph → List Incidence} {graph : GraphStore}

/-- The checks of all rows answer, and the rows they admit pass the test. -/
def AdmittedAll (gate : Option (GraphBuildGate β)) (arena : StateArena) (pools : List PoolMeta)
    (test : PoolMeta → Prop) : Prop :=
  ∀ pool ∈ pools, ∃ admissible, poolHasAdmissibleEdges gate arena pool = some admissible ∧
    (admissible = true → test pool)

lemma admittedAll_congr {test test' : PoolMeta → Prop}
    (h : ∀ pool ∈ pools, poolHasAdmissibleEdges gate arena pool = some true → (test pool ↔ test' pool)) :
    AdmittedAll gate arena pools test ↔ AdmittedAll gate arena pools test' := by
  refine forall₂_congr fun pool hpool => exists_congr fun admissible => and_congr_right fun hcheck => ?_
  refine forall_congr' fun htrue => ?_
  rw [htrue] at hcheck
  exact h pool hpool hcheck

/-- The count is right when no admitted row goes without an edge. -/
lemma count_eq_wanted_iff :
    countGraphEligiblePoolsWithGate gate arena pools = some (pools.countP (Wanted gate arena ·)) ↔
      AdmittedAll gate arena pools (Attachable arena) := by
  have hfilter : pools.countP (Wanted gate arena ·) =
      ((pools.filter ((attachGate gate).admissible arena)).filter (Attachable arena ·)).length := by
    rw [List.filter_filter, List.countP_eq_length_filter]
    refine congrArg List.length (List.filter_congr fun pool _ => ?_)
    rw [Bool.eq_iff_iff, Bool.and_eq_true, admissible_attachGate, decide_eq_true_iff,
      decide_eq_true_iff, Wanted, and_comm]
  rw [countGraphEligible_eq_some, hfilter, List.countP_eq_length_filter, eq_comm (b := List.length _),
    List.length_filter_eq_length_iff, AdmittedAll]
  simp only [List.mem_filter, admissible_attachGate, decide_eq_true_iff]
  constructor
  · rintro ⟨hsome, hall⟩ pool hpool
    rcases Option.isSome_iff_exists.mp (hsome pool hpool) with ⟨admissible, hcheck⟩
    exact ⟨admissible, hcheck, fun htrue => hall pool ⟨hpool, htrue ▸ hcheck⟩⟩
  · intro h
    refine ⟨fun pool hpool => ?_, fun pool hpool => ?_⟩
    · rcases h pool hpool with ⟨admissible, hcheck, -⟩
      exact Option.isSome_iff_exists.mpr ⟨admissible, hcheck⟩
    · rcases h pool hpool.1 with ⟨admissible, hcheck, htest⟩
      exact htest (Option.some.inj (hcheck.symm.trans hpool.2))

/-- After a pass with room left nothing is missing exactly when every row the checks admit could be
attached or was there already; after a build the count is the number of pools with an edge exactly when
every row the checks admit could be attached. -/
theorem attach_converges_iff (hgraph : HeldGraph order graph)
    (hreg : ∀ pool ∈ pools, Registered arena pool) (hdistinct : (pools.map PoolMeta.poolIndex).Nodup) :
    (∀ after, attachMissingEligiblePools order (attachGate gate) arena graph pools = some after →
      (attachReport (attachGate gate) arena graph after pools).attachedPools < attachMissingCap →
        (hasMissingEligiblePoolsWithGate gate arena after pools = some false ↔
          AdmittedAll gate arena pools fun pool =>
            edgesMissing arena graph pool = false ∨ Attachable arena pool)) ∧
    ∀ built, buildGraph order (attachGate gate) arena pools = some built →
      (countGraphEligiblePoolsWithGate gate arena pools = some (poolsWithEdges built) ↔
        AdmittedAll gate arena pools (Attachable arena)) := by
  have hsound := hgraph.sound
  refine ⟨fun after hstep hroom => ?_, fun built hbuild => ?_⟩
  · have hafter := hsound.attachMissing _ hreg hstep
    rw [hasMissing_eq_false_iff]
    refine admittedAll_congr fun pool hpool hadmissible => ?_
    rw [hafter.indexed.edgesMissing_eq_false_iff, hsound.indexed.edgesMissing_eq_false_iff]
    exact attachMissing_settled_iff hsound hreg hdistinct hroom hstep hpool hadmissible
  · rw [poolsWithEdges_buildGraph hreg hdistinct hbuild]
    exact count_eq_wanted_iff

end Converges

/-! ### A vault with three tokens -/

/-- A weighted vault pool whose second token has run out. -/
def drainedVault : PoolState := .balancer
  { poolId := none
    tokens := [1, 2, 3]
    balances := [1000000000000000000000, 0, 1000000000000000000000]
    weights := List.replicate 3 333333333333333333
    scalingFactors := List.replicate 3 1000000000000000000
    amp := 0
    ampPrecision := 0
    fee := 3000000000000000
    poolType := .weighted
    linear := none
    bptIndex := none
    isUpdating := false
    lastChangeBlock := 0 }

/-- The row knows two of the three tokens. -/
def vaultRow : PoolMeta := ⟨0, .balancerV2, [0, 1], 30, none, none⟩

def vaultArena (tokens : List Address) : StateArena := poolArena tokens [9] [drainedVault]

def noBuildGate : Option (GraphBuildGate Unit) := none

lemma registered_vaultRow {tokens : List Address} (htokens : tokens.Nodup) (hlen : 2 ≤ tokens.length) :
    ∀ pool ∈ [vaultRow], Registered (vaultArena tokens) pool := by
  intro pool hpool
  rw [List.mem_singleton.mp hpool]
  have hlt : ∀ token ∈ vaultRow.tokens, token < 2 := by decide
  exact ⟨tablesOk_poolArena htokens (by decide) rfl, fun token htoken => (hlt token htoken).trans_le hlen⟩

/-- With its third token in the arena the pool is attached, and counted once. -/
theorem attach_converges_iff_vault :
    (∃ after, attachMissingEligiblePools metOrder (attachGate noBuildGate) (vaultArena [1, 2, 3]) (.new 0)
        [vaultRow] = some after ∧
      hasMissingEligiblePoolsWithGate noBuildGate (vaultArena [1, 2, 3]) after [vaultRow] = some false) ∧
    ∃ built, buildGraph metOrder (attachGate noBuildGate) (vaultArena [1, 2, 3]) [vaultRow] = some built ∧
      countGraphEligiblePoolsWithGate noBuildGate (vaultArena [1, 2, 3]) [vaultRow] =
        some (poolsWithEdges built) := by
  have hreg := @registered_vaultRow [1, 2, 3] (by decide) (by decide)
  have hall : AdmittedAll noBuildGate (vaultArena [1, 2, 3]) [vaultRow]
      (Attachable (vaultArena [1, 2, 3])) := by
    intro pool hpool
    rw [List.mem_singleton.mp hpool]
    exact ⟨true, by decide +kernel, fun _ => by decide +kernel⟩
  have hiff := @attach_converges_iff _ noBuildGate _ _ metOrder _ (.init ⟨0, rfl⟩) hreg (by decide)
  have hpass : (attachMissingEligiblePools metOrder (attachGate noBuildGate) (vaultArena [1, 2, 3])
      (.new 0) [vaultRow]).isSome = true := by decide +kernel
  have hbuild : (buildGraph metOrder (attachGate noBuildGate) (vaultArena [1, 2, 3])
      [vaultRow]).isSome = true := by decide +kernel
  rcases Option.isSome_iff_exists.mp hpass with ⟨after, hafter⟩
  rcases Option.isSome_iff_exists.mp hbuild with ⟨built, hbuilt⟩
  have hroom : (attachReport (attachGate noBuildGate) (vaultArena [1, 2, 3]) (.new 0) after
      [vaultRow]).attachedPools < attachMissingCap := by
    show (attachMissingBatch _ _ _ _).2.length < _
    decide +kernel
  refine ⟨⟨after, hafter, (hiff.1 after hafter hroom).mpr fun pool hpool => ?_⟩,
    built, hbuilt, (hiff.2 built hbuilt).mpr hall⟩
  rcases hall pool hpool with ⟨admissible, hcheck, hattachable⟩
  exact ⟨admissible, hcheck, fun htrue => .inr (hattachable htrue)⟩

/-- The pool is eligible for its first and third token.  The arena does not know the third, so every pass
and every build leaves it without an edge. -/
theorem attach_unregistered_leg :
    HeldGraph metOrder (.new 0) ∧
      (attachMissingEligiblePools metOrder (attachGate noBuildGate) (vaultArena [1, 2]) (.new 0)
        [vaultRow]).bind (fun after =>
          (hasMissingEligiblePoolsWithGate noBuildGate (vaultArena [1, 2]) after [vaultRow]).map
            fun missing => (missing, (attachReport (attachGate noBuildGate) (vaultArena [1, 2]) (.new 0)
              after [vaultRow]).attachedPools)) = some (true, 0) ∧
      countGraphEligiblePoolsWithGate noBuildGate (vaultArena [1, 2]) [vaultRow] = some 1 ∧
      (buildGraph metOrder (attachGate noBuildGate) (vaultArena [1, 2]) [vaultRow]).map poolsWithEdges =
        some 0 :=
  ⟨.init ⟨0, rfl⟩, by decide +kernel, by decide +kernel, by decide +kernel⟩

end PolygonArb

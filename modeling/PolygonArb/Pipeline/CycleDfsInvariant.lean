import PolygonArb.Pipeline.CycleDfs

/-!
# What the depth-first search emits and leaves behind

Every call of the search leaves the path and the marks as it found them, whatever the call and
whatever the oracle answers (`Restored`).  A call whose path is a walk from the start, with its pools
and tokens marked and its sums those of the path (`Trail`), only emits cycles as `Emitted` describes
them.  Both are one statement about a call, `Kept`, so that the cases of the search are gone through
once.
-/

namespace PolygonArb

open Word Loop

/-! ## Flags -/

lemma isMarked_set {used : List Bool} {i : ℕ} (hi : i < used.length) (flag : Bool) (j : ℕ) :
    isMarked (used.set i flag) j = if j = i then flag else isMarked used j := by
  by_cases hij : j = i
  · subst hij
    simp [isMarked, hi]
  · simp [isMarked, hij, List.getElem?_set_ne (Ne.symm hij)]

lemma isMarked_of_length_le {used : List Bool} {i : ℕ} (hi : used.length ≤ i) :
    isMarked used i = false := by
  simp [isMarked, List.getElem?_eq_none hi]

/-- Slots that are not set can be added at the end. -/
lemma isMarked_append_replicate (used : List Bool) (n i : ℕ) :
    isMarked (used ++ List.replicate n false) i = isMarked used i := by
  by_cases hi : i < used.length
  · rw [isMarked, isMarked, List.getElem?_append_left hi]
  · rw [isMarked_of_length_le (not_lt.mp hi), isMarked, List.getElem?_append_right (not_lt.mp hi),
      List.getElem?_replicate]
    split_ifs <;> rfl

lemma poolMark_eq_some {used used' : List Bool} {pool : ℕ} (h : poolMark used pool = some used') :
    isMarked used pool = false ∧ used.length ≤ used'.length ∧
      ∀ i, isMarked used' i = if i = pool then true else isMarked used i := by
  rw [poolMark] at h
  have hlen : pool < (used ++ List.replicate (pool + 1 - used.length) false).length := by
    rw [List.length_append, List.length_replicate]
    omega
  split_ifs at h with hmarked
  cases h
  refine ⟨?_, by simp, fun i => ?_⟩
  · rw [isMarked_append_replicate] at hmarked
    exact Bool.eq_false_of_not_eq_true hmarked
  · rw [isMarked_set hlen, isMarked_append_replicate]

lemma isMarked_poolUnmark (used : List Bool) (pool i : ℕ) :
    isMarked (poolUnmark used pool) i = if i = pool then false else isMarked used i := by
  by_cases hpool : pool < used.length
  · exact isMarked_set hpool false i
  · rw [poolUnmark, List.set_eq_of_length_le (not_lt.mp hpool)]
    split_ifs with hi
    · rw [hi, isMarked_of_length_le (not_lt.mp hpool)]
    · rfl

/-- Setting a clear flag and clearing it again. -/
lemma set_true_set_false {used : List Bool} {i : ℕ} (hclear : isMarked used i = false) :
    (used.set i true).set i false = used := by
  by_cases hi : i < used.length
  · rw [List.set_set]
    have hget : used[i] = false := by simpa [isMarked, hi] using hclear
    rw [← hget, List.set_getElem_self]
  · rw [List.set_eq_of_length_le (by simpa using hi), List.set_eq_of_length_le (not_lt.mp hi)]

/-! ## What a call keeps -/

/-- The scratch is as it was.  The pool flags may have grown by slots that are not set. -/
structure DfsScratch.Restored (s s' : DfsScratch) : Prop where
  path : s'.path = s.path
  usedTokens : s'.usedTokens = s.usedTokens
  usedPools : ∀ i, isMarked s'.usedPools i = isMarked s.usedPools i
  slots : s.usedPools.length ≤ s'.usedPools.length

/-- Cycles are only added, and questions only asked. -/
structure DfsState.Grows (s t : DfsState) : Prop where
  cycles : s.cycles <+: t.cycles
  asked : s.asked ≤ t.asked

namespace DfsState

variable {s t u : DfsState}

lemma Grows.refl : s.Grows s := ⟨List.prefix_rfl, le_rfl⟩

lemma Grows.trans (h : s.Grows t) (h' : t.Grows u) : s.Grows u :=
  ⟨h.cycles.trans h'.cycles, h.asked.trans h'.asked⟩

lemma grows_tick : s.Grows s.tick := ⟨List.prefix_rfl, Nat.le_succ _⟩

end DfsState

/-- A hop of the search with its ratio: a direct edge of the active graph, or the swap a hub was
entered for at its present price. -/
inductive DfsEnv.HopRatio (env : DfsEnv) (edge : Edge) (ratio : U256) : Prop
  | direct {ge : GraphEdge} (mem : ge ∈ env.prep.edgesAt edge.tokenIn) (phase : ge.phase = .direct)
      (hedge : ge.edge = edge) (hratio : ge.ratio = ratio)
  | hub {ge : GraphEdge} {leg : ℕ} {weight : Float} (mem : ge ∈ env.prep.edgesAt edge.tokenIn)
      (phase : ge.phase = .enterPool)
      (hswap : resolveLazySwapEdge env.arena (.ofEdge ge.edge) edge.tokenOut leg =
        some (some (edge, weight, ratio)))

/-- The ratio of a path is the forward fold over its hops. -/
def DfsEnv.PathRatio (env : DfsEnv) (path : List Edge) (product : U256) : Prop :=
  ∃ ratios, List.Forall₂ env.HopRatio path ratios ∧ product = foldRatio one18 ratios

/-- A cycle as the search may emit it. -/
structure DfsEnv.Emitted (env : DfsEnv) (c : FoundCycle) : Prop where
  start : c.startToken = env.start
  closed : Walk env.start c.edges env.start
  pools : (c.edges.map Edge.poolIndex).Nodup
  tokens : (c.edges.map Edge.tokenIn).Nodup
  two_le : 2 ≤ c.edges.length
  le_cap : c.edges.length ≤ min env.hopLimit PolygonArb.hopCap
  hopCount : c.hopCount = c.edges.length
  ratio : env.PathRatio c.edges c.cycleRatio
  fits : routeFitsExecutor c.edges = true

/-- A call restores the scratch, only adds, and emits as described if it was made as it should be.  Nothing
closes at a start that is no token of the graph. -/
structure DfsEnv.Kept (env : DfsEnv) (ok : Prop) (s s' : DfsState) : Prop
    extends s.toDfsScratch.Restored s'.toDfsScratch where
  emits : ok → ∀ c ∈ s'.cycles, c ∈ s.cycles ∨ env.Emitted c
  stray : env.graph.tokenCount ≤ env.start → s'.cycles = s.cycles
  grows : s.Grows s'

namespace DfsEnv

variable {env : DfsEnv} {ok ok' : Prop} {s t u : DfsState}

lemma Kept.refl : env.Kept ok s s :=
  ⟨⟨rfl, rfl, fun _ => rfl, le_rfl⟩, fun _ _ hc => .inl hc, fun _ => rfl, .refl⟩

lemma restored_tick : s.toDfsScratch.Restored s.tick.toDfsScratch := ⟨rfl, rfl, fun _ => rfl, le_rfl⟩

lemma kept_tick : env.Kept ok s s.tick :=
  ⟨restored_tick, fun _ _ hc => .inl hc, fun _ => rfl, DfsState.grows_tick⟩

/-- What follows may rely on what went before. -/
lemma Kept.trans (h : env.Kept ok s t) (h' : env.Kept ok' t u) (hok : ok → ok') : env.Kept ok s u where
  path := h'.path.trans h.path
  usedTokens := h'.usedTokens.trans h.usedTokens
  usedPools i := (h'.usedPools i).trans (h.usedPools i)
  slots := h.slots.trans h'.slots
  emits hs c hc := by
    rcases h'.emits (hok hs) c hc with hc | hc
    · exact h.emits hs c hc
    · exact .inr hc
  stray hstart := (h'.stray hstart).trans (h.stray hstart)
  grows := h.grows.trans h'.grows

lemma Kept.imp (h : env.Kept ok' s t) (hok : ok → ok') : env.Kept ok s t :=
  ⟨h.toRestored, fun hs => h.emits (hok hs), h.stray, h.grows⟩

/-- Back from a descent along an edge. -/
lemma Kept.pop {edge : Edge} (h : env.Kept ok (s.push edge) t) : env.Kept ok s t.pop where
  path := by
    rw [DfsState.pop, h.path, DfsState.push, List.dropLast_concat]
  usedTokens := h.usedTokens
  usedPools := h.usedPools
  slots := h.slots
  emits := h.emits
  stray := h.stray
  grows := ⟨h.grows.cycles, h.grows.asked⟩

/-- A pool that was marked for a while. -/
lemma Kept.unmarkPool {pool : PoolIndex} (h : env.Kept ok t u) (hmark : s.markPool pool = some t) :
    env.Kept ok s (u.unmarkPool pool) := by
  rcases Option.map_eq_some_iff.mp hmark with ⟨used, hused, rfl⟩
  rcases poolMark_eq_some hused with ⟨hfree, hslots, hmarked⟩
  refine ⟨⟨h.path, h.usedTokens, fun i => ?_, ?_⟩, h.emits, h.stray, ⟨h.grows.cycles, h.grows.asked⟩⟩
  · rw [DfsState.unmarkPool, isMarked_poolUnmark, h.usedPools i, hmarked i]
    split_ifs with hi
    · rw [hi, hfree]
    · rfl
  · simpa [DfsState.unmarkPool, poolUnmark] using hslots.trans h.slots

/-- A token that was marked for a while. -/
lemma Kept.setToken {token : TokenIndex} (h : env.Kept ok (s.setToken token true) t)
    (hclear : isMarked s.usedTokens token = false) : env.Kept ok s (t.setToken token false) where
  path := h.path
  usedTokens := by
    rw [DfsState.setToken, h.usedTokens, DfsState.setToken, set_true_set_false hclear]
  usedPools := h.usedPools
  slots := h.slots
  emits := h.emits
  stray := h.stray
  grows := ⟨h.grows.cycles, h.grows.asked⟩

/-! ## Calls as they should be made -/

/-- The edges the search walks are well formed. -/
abbrev WellFormed (env : DfsEnv) : Prop := EdgesWellFormed env.graph.tokenCount env.prep.edgesAt

/-- The path leads to the current token, its pools and tokens are marked, and the sums of the call are
those of the path. -/
structure Trail (env : DfsEnv) (call : DfsCall) (curr : TokenIndex) (s : DfsState) : Prop where
  walk : Walk env.start s.path curr
  hops : s.path.length = call.hops
  hops_le : call.hops ≤ max env.hopCap 1
  pools : (s.path.map Edge.poolIndex).Nodup
  pools_marked : ∀ e ∈ s.path, isMarked s.usedPools e.poolIndex = true
  tokens : (s.path.map Edge.tokenIn).Nodup
  tokens_marked : ∀ e ∈ s.path, isMarked s.usedTokens e.tokenIn = true
  ratio : env.PathRatio s.path call.productRatio
  calls : call.pathHopCalls = hopCallSum s.path

/-- The current token is marked as well and there is room for another hop. -/
structure OpenTrail (env : DfsEnv) (call : DfsCall) (curr : TokenIndex) (s : DfsState) : Prop
    extends env.Trail call curr s where
  marked : isMarked s.usedTokens curr = true
  fresh : ∀ e ∈ s.path, e.tokenIn ≠ curr
  room : call.hops + 1 ≤ max env.hopCap 1

/-- The pool of the next hop is marked as well. -/
structure PoolTrail (env : DfsEnv) (call : DfsCall) (curr : TokenIndex) (pool : PoolIndex)
    (s : DfsState) : Prop extends env.OpenTrail call curr s where
  pool_marked : isMarked s.usedPools pool = true
  pool_fresh : ∀ e ∈ s.path, e.poolIndex ≠ pool

/-- The pending swap was opened by an edge of its token. -/
def Enters (env : DfsEnv) (pending : PendingHubSwap) : Prop :=
  ∃ ge ∈ env.prep.edgesAt pending.tokenIn, ge.phase = .enterPool ∧ pending = .ofEdge ge.edge

/-- A token is called with the path that leads to it, a hub with the path to the token before it. -/
def CallOk (env : DfsEnv) (call : DfsCall) (s : DfsState) : Prop :=
  env.WellFormed ∧
    match call.pending with
    | none => env.Trail call call.node s
    | some pending =>
        env.graph.tokenCount ≤ call.node ∧ env.Enters pending ∧ env.OpenTrail call pending.tokenIn s

section Trails

variable {call next : DfsCall} {curr : TokenIndex} {pool : PoolIndex} {edge : Edge} {ratio : U256}

lemma PathRatio.push {path : List Edge} {product : U256} (h : env.PathRatio path product)
    (hhop : env.HopRatio edge ratio) :
    env.PathRatio (path ++ [edge]) (mulRatioSaturating product ratio) := by
  rcases h with ⟨ratios, hratios, rfl⟩
  refine ⟨ratios ++ [ratio], List.rel_append hratios (.cons hhop .nil), ?_⟩
  rw [foldRatio, foldRatio, List.foldl_append, List.foldl_cons, List.foldl_nil]

lemma nodup_map_push {f : Edge → ℕ} {path : List Edge} (h : (path.map f).Nodup)
    (hfresh : ∀ e ∈ path, f e ≠ f edge) : ((path ++ [edge]).map f).Nodup := by
  rw [List.map_append, List.nodup_append]
  refine ⟨h, by simp, ?_⟩
  intro a ha b hb
  rcases List.mem_map.mp ha with ⟨e, he, rfl⟩
  rw [List.map_singleton, List.mem_singleton] at hb
  rw [hb]
  exact hfresh e he

lemma forall_mem_push {P : Edge → Prop} {path : List Edge} (h : ∀ e ∈ path, P e) (hedge : P edge) :
    ∀ e ∈ path ++ [edge], P e := by
  intro e he
  rcases List.mem_append.mp he with he | he
  · exact h e he
  · rw [List.mem_singleton.mp he]
    exact hedge

lemma hopCallSum_push (path : List Edge) (edge : Edge) :
    hopCallSum (path ++ [edge]) = hopCallSum path + estimateHopCalls edge.protocol := by
  simp [hopCallSum]

/-- The saturating sum is the sum as long as it is within the budget. -/
lemma addCalls_of_fits {a b : ℕ} (h : routeHopBudgetExceeded (addCalls a b) = false) :
    addCalls a b = a + b := by
  rw [routeHopBudgetExceeded, packedCallsFitExecutor, maxExecutorCalls, Bool.not_eq_false',
    decide_eq_true_eq, addCalls] at h
  rw [addCalls]
  omega

/-- A trail only looks at the path and the marks. -/
lemma Trail.restored (h : env.Trail call curr s) (hs : s.toDfsScratch.Restored t.toDfsScratch) :
    env.Trail call curr t where
  walk := hs.path ▸ h.walk
  hops := hs.path ▸ h.hops
  hops_le := h.hops_le
  pools := hs.path ▸ h.pools
  pools_marked e he := (hs.usedPools e.poolIndex).trans (h.pools_marked e (hs.path ▸ he))
  tokens := hs.path ▸ h.tokens
  tokens_marked e he := hs.usedTokens ▸ h.tokens_marked e (hs.path ▸ he)
  ratio := hs.path ▸ h.ratio
  calls := hs.path ▸ h.calls

lemma OpenTrail.restored (h : env.OpenTrail call curr s)
    (hs : s.toDfsScratch.Restored t.toDfsScratch) : env.OpenTrail call curr t where
  toTrail := h.toTrail.restored hs
  marked := hs.usedTokens ▸ h.marked
  fresh e he := h.fresh e (hs.path ▸ he)
  room := h.room

lemma PoolTrail.restored (h : env.PoolTrail call curr pool s)
    (hs : s.toDfsScratch.Restored t.toDfsScratch) : env.PoolTrail call curr pool t where
  toOpenTrail := h.toOpenTrail.restored hs
  pool_marked := (hs.usedPools pool).trans h.pool_marked
  pool_fresh e he := h.pool_fresh e (hs.path ▸ he)

lemma CallOk.restored (h : env.CallOk call s) (hs : s.toDfsScratch.Restored t.toDfsScratch) :
    env.CallOk call t := by
  rcases h with ⟨hwf, hok⟩
  refine ⟨hwf, ?_⟩
  cases hpending : call.pending with
  | none =>
      rw [hpending] at hok
      exact hok.restored hs
  | some pending =>
      rw [hpending] at hok
      exact ⟨hok.1, hok.2.1, hok.2.2.restored hs⟩

/-- Marking a free pool. -/
lemma OpenTrail.markPool (h : env.OpenTrail call curr s) (hmark : s.markPool pool = some t) :
    env.PoolTrail call curr pool t := by
  rcases Option.map_eq_some_iff.mp hmark with ⟨used, hused, rfl⟩
  rcases poolMark_eq_some hused with ⟨hfree, -, hmarked⟩
  have hother : ∀ e ∈ s.path, e.poolIndex ≠ pool := by
    intro e he heq
    have hset := h.pools_marked e he
    rw [heq, hfree] at hset
    cases hset
  refine ⟨⟨⟨h.walk, h.hops, h.hops_le, h.pools, fun e he => ?_, h.tokens, h.tokens_marked, h.ratio,
    h.calls⟩, h.marked, h.fresh, h.room⟩, ?_, hother⟩
  · rw [hmarked, if_neg (hother e he)]
    exact h.pools_marked e he
  · rw [hmarked, if_pos rfl]

/-- Marking the current token. -/
lemma Trail.setToken (h : env.Trail call curr s) (hlt : curr < s.usedTokens.length)
    (hclear : ∀ e ∈ s.path, e.tokenIn ≠ curr) (hroom : call.hops + 1 ≤ max env.hopCap 1) :
    env.OpenTrail call curr (s.setToken curr true) := by
  refine ⟨⟨h.walk, h.hops, h.hops_le, h.pools, h.pools_marked, h.tokens, fun e he => ?_, h.ratio,
    h.calls⟩, ?_, hclear, hroom⟩
  · rw [DfsState.setToken, isMarked_set hlt, if_neg (hclear e he)]
    exact h.tokens_marked e he
  · rw [DfsState.setToken, isMarked_set hlt, if_pos rfl]

/-- One hop further. -/
lemma PoolTrail.push (h : env.PoolTrail call curr pool s) (hin : edge.tokenIn = curr)
    (hpool : edge.poolIndex = pool) (hhop : env.HopRatio edge ratio) {node : ℕ} {logW : Float}
    {pin : Bool}
    (hfits : routeHopBudgetExceeded
      (addCalls call.pathHopCalls (estimateHopCalls edge.protocol)) = false) :
    env.Trail (nextCall call edge node logW (mulRatioSaturating call.productRatio ratio) pin)
      edge.tokenOut (s.push edge) where
  walk := h.walk.push hin
  hops := by simp [DfsState.push, nextCall, h.hops]
  hops_le := h.room
  pools := nodup_map_push h.pools fun e he => hpool ▸ h.pool_fresh e he
  pools_marked := forall_mem_push h.pools_marked (hpool ▸ h.pool_marked)
  tokens := nodup_map_push h.tokens fun e he => hin ▸ h.fresh e he
  tokens_marked := forall_mem_push h.tokens_marked (hin ▸ h.marked)
  ratio := h.ratio.push hhop
  calls := by
    rw [nextCall, addCalls_of_fits hfits, DfsState.push, hopCallSum_push, h.calls]

end Trails

/-! ## The cases of a call -/

/-- The recursive calls keep what a call keeps. -/
def Visits (env : DfsEnv) (visit : DfsCall → DfsState → Run DfsState) : Prop :=
  ∀ call s s', visit call s = some s' → env.Kept (env.CallOk call s) s s'

section Cases

variable {visit : DfsCall → DfsState → Run DfsState} {call next : DfsCall} {edge : Edge}
  {pending : PendingHubSwap} {ge : GraphEdge} {r : LoopStep DfsState}

lemma descend_kept (hvisit : env.Visits visit) (h : descend visit edge next s = some t) :
    env.Kept (env.CallOk next (s.push edge)) s t := by
  rcases Option.map_eq_some_iff.mp h with ⟨u, hu, rfl⟩
  exact (hvisit next (s.push edge) u hu).pop

/-- A cycle is recorded as the path and the sums of the call are. -/
lemma Trail.emitted (h : env.Trail call env.start s) (hhops : 2 ≤ call.hops)
    (hfits : routeHopBudgetExceeded call.pathHopCalls = false) (score : Float) :
    env.Emitted (env.foundCycle call score s.path) where
  start := rfl
  closed := h.walk
  pools := h.pools
  tokens := h.tokens
  two_le := h.hops.symm ▸ hhops
  le_cap := by
    have hle := h.hops_le
    rw [hopCap] at hle
    rw [foundCycle, h.hops]
    omega
  hopCount := h.hops.symm
  ratio := h.ratio
  fits := by
    have hne : s.path ≠ [] := by
      intro hnil
      have hlen := h.hops
      rw [hnil, List.length_nil] at hlen
      omega
    rw [h.calls, routeHopBudgetExceeded, packedCallsFitExecutor, Bool.not_eq_false',
      decide_eq_true_eq] at hfits
    exact routeFitsExecutor_of_hopCallSum hne hfits

lemma record_kept {score : Float} (hstart : env.start < env.graph.tokenCount)
    (hemit : ok → env.Emitted (env.foundCycle call score s.path)) :
    env.Kept ok s (env.record call score s) where
  path := rfl
  usedTokens := rfl
  usedPools _ := rfl
  slots := le_rfl
  emits hok c hc := by
    rcases List.mem_append.mp hc with hc | hc
    · exact .inl hc
    · rw [List.mem_singleton.mp hc]
      exact .inr (hemit hok)
  stray hstray := absurd hstart (not_lt.mpr hstray)
  grows := ⟨List.prefix_append _ _, le_rfl⟩

lemma claim_kept {score : Float} (hstart : env.start < env.graph.tokenCount) (hhops : 2 ≤ call.hops)
    (hfits : routeHopBudgetExceeded call.pathHopCalls = false) :
    env.Kept (env.Trail call env.start s) s (env.claim call score s) := by
  rw [claim]
  dsimp only
  split_ifs
  · exact kept_tick.trans (record_kept hstart fun htrail => htrail.emitted hhops hfits score)
      fun htrail => htrail.restored restored_tick
  · exact kept_tick

lemma closeCycle_kept (hstart : env.start < env.graph.tokenCount) (hhops : 2 ≤ call.hops) :
    env.Kept (env.Trail call env.start s) s (env.closeCycle call s) := by
  rw [closeCycle]
  dsimp only
  split_ifs with hbudget _ _ _ hreserve
  · exact .refl
  · exact .refl
  · exact .refl
  · exact .refl
  · exact kept_tick
  · exact kept_tick.trans (claim_kept hstart hhops (Bool.eq_false_of_not_eq_true hbudget)) fun htrail =>
      htrail.restored restored_tick
  · exact .refl
  · exact claim_kept hstart hhops (Bool.eq_false_of_not_eq_true hbudget)

/-- A hop through a hub, as long as the pool of the hub is marked. -/
lemma takeLeg_kept (hvisit : env.Visits visit) {pool : PoolMeta} {state : PoolState} {leg : ℕ}
    (h : env.takeLeg visit call pending pool state leg s = some t) :
    env.Kept (env.WellFormed ∧ env.Enters pending ∧
      env.PoolTrail call pending.tokenIn pending.poolIndex s) s t := by
  rw [takeLeg] at h
  cases htoken : routingTokenAtLeg env.arena state pool leg with
  | none =>
      rw [htoken] at h
      cases h
      exact .refl
  | some tokenOut =>
      rw [htoken] at h
      rcases Option.bind_eq_some_iff.mp h with ⟨swap, hswap, hrest⟩
      match swap, hswap with
      | none, _ =>
          cases hrest
          exact .refl
      | some (edge, weight, ratio), hswap =>
          dsimp only at hrest
          split_ifs at hrest with _ hbudget
          · cases hrest
            exact .refl
          · cases hrest
            exact .refl
          · refine (descend_kept hvisit hrest).imp ?_
            rintro ⟨hwf, ⟨ge, hmem, hphase, rfl⟩, htrail⟩
            rcases resolveLazySwapEdge_eq_some hswap with ⟨hpool, hin, rfl⟩
            refine ⟨hwf, ?_⟩
            exact htrail.push hin hpool (.hub (hin ▸ hmem) hphase hswap)
              (Bool.eq_false_of_not_eq_true hbudget)

lemma shouldStop_snd {b : Bool} (h : env.shouldStop s = (b, t)) : t = s.tick :=
  (congrArg Prod.snd h).symm

lemma exitLeg_kept (hvisit : env.Visits visit) {pool : PoolMeta} {state : PoolState} {leg : ℕ}
    (h : env.exitLeg visit call pending pool state s leg = some r) :
    env.Kept (env.WellFormed ∧ env.Enters pending ∧
      env.PoolTrail call pending.tokenIn pending.poolIndex s) s r.state := by
  rw [exitLeg] at h
  split_ifs at h
  · cases h
    exact .refl
  split at h
  · rename_i s₁ hstop
    cases h
    rw [shouldStop_snd hstop]
    exact kept_tick
  · rename_i s₁ hstop
    rw [shouldStop_snd hstop] at h
    rcases Option.map_eq_some_iff.mp h with ⟨u, hu, rfl⟩
    refine kept_tick.trans (takeLeg_kept hvisit hu) ?_
    rintro ⟨hwf, henters, htrail⟩
    exact ⟨hwf, henters, htrail.restored restored_tick⟩

lemma visitHub_kept (hvisit : env.Visits visit) (h : env.visitHub visit call pending s = some t) :
    env.Kept (env.WellFormed ∧ env.Enters pending ∧ env.OpenTrail call pending.tokenIn s) s t := by
  rw [visitHub] at h
  cases hmark : s.markPool pending.poolIndex with
  | none =>
      rw [hmark] at h
      cases h
      exact .refl
  | some s₁ =>
      rw [hmark] at h
      dsimp only at h
      split at h
      · rename_i pool state _ _
        rcases Option.map_eq_some_iff.mp h with ⟨u, hu, rfl⟩
        have hlegs : env.Kept (env.WellFormed ∧ env.Enters pending ∧
            env.OpenTrail call pending.tokenIn s) s₁ u := by
          refine tryForLoop_inv (fun u => env.Kept _ s₁ u) _ s₁ u ?_ .refl hu
          intro leg _ s₂ r hs₂ hr
          refine hs₂.trans (exitLeg_kept hvisit hr) ?_
          rintro ⟨hwf, henters, htrail⟩
          exact ⟨hwf, henters, (htrail.markPool hmark).restored hs₂.toRestored⟩
        exact hlegs.unmarkPool hmark
      · cases h
        exact Kept.refl.unmarkPool hmark

/-- The edge is one of a token, and the path leads to that token. -/
def EdgeOk (env : DfsEnv) (call : DfsCall) (ge : GraphEdge) (s : DfsState) : Prop :=
  env.WellFormed ∧ call.node < env.graph.tokenCount ∧ ge ∈ env.prep.edgesAt call.node ∧
    env.OpenTrail call call.node s

lemma EdgeOk.restored (h : env.EdgeOk call ge s) (hs : s.toDfsScratch.Restored t.toDfsScratch) :
    env.EdgeOk call ge t :=
  ⟨h.1, h.2.1, h.2.2.1, h.2.2.2.restored hs⟩

/-- The call after a direct edge, whose pool is marked. -/
lemma EdgeOk.direct (h : env.EdgeOk call ge s) (hphase : ge.phase = .direct)
    (hmark : s.markPool ge.edge.poolIndex = some t) {logW : Float} {pin : Bool}
    (hfits : routeHopBudgetExceeded
      (addCalls call.pathHopCalls (estimateHopCalls ge.edge.protocol)) = false) :
    env.CallOk (nextCall call ge.edge ge.targetNode logW
      (mulRatioSaturating call.productRatio ge.ratio) pin) (t.push ge.edge) := by
  rcases h with ⟨hwf, hnode, hmem, htrail⟩
  have hin : ge.edge.tokenIn = call.node := hwf.token_in call.node hnode ge hmem
  have hnext : env.Trail (nextCall call ge.edge ge.targetNode logW
      (mulRatioSaturating call.productRatio ge.ratio) pin) ge.edge.tokenOut (t.push ge.edge) :=
    (htrail.markPool hmark).push hin rfl (.direct (hin ▸ hmem) hphase rfl rfl) hfits
  rw [← hwf.direct call.node hnode ge hmem hphase] at hnext
  exact ⟨hwf, hnext⟩

lemma takeDirect_kept (hvisit : env.Visits visit) (hphase : ge.phase = .direct)
    (h : env.takeDirect visit call ge s = some t) : env.Kept (env.EdgeOk call ge s) s t := by
  rw [takeDirect] at h
  split_ifs at h
  · cases h
    exact .refl
  cases hmark : s.markPool ge.edge.poolIndex with
  | none =>
      rw [hmark] at h
      cases h
      exact .refl
  | some s₁ =>
      rw [hmark] at h
      dsimp only at h
      split_ifs at h with _ hbudget
      · cases h
        exact Kept.refl.unmarkPool hmark
      · cases h
        exact Kept.refl.unmarkPool hmark
      · rcases Option.map_eq_some_iff.mp h with ⟨u, hu, rfl⟩
        refine ((descend_kept hvisit hu).imp fun hok => ?_).unmarkPool hmark
        exact hok.direct hphase hmark (Bool.eq_false_of_not_eq_true hbudget)

/-- The call into a hub. -/
lemma EdgeOk.enter (h : env.EdgeOk call ge s) (hphase : ge.phase = .enterPool) :
    env.CallOk (env.enterCall call ge) s := by
  rcases h with ⟨hwf, hnode, hmem, htrail⟩
  have hin : ge.edge.tokenIn = call.node := hwf.token_in call.node hnode ge hmem
  refine ⟨hwf, hwf.enter call.node hnode ge hmem hphase, ⟨ge, ?_, hphase, rfl⟩, ?_⟩
  · rw [PendingHubSwap.ofEdge, hin]
    exact hmem
  · rw [PendingHubSwap.ofEdge, hin]
    exact ⟨⟨htrail.walk, htrail.hops, htrail.hops_le, htrail.pools, htrail.pools_marked, htrail.tokens,
      htrail.tokens_marked, htrail.ratio, htrail.calls⟩, htrail.marked, htrail.fresh, htrail.room⟩

/-- One edge of a node: the search asks whether to stop, passes over the edge, or goes down along it. -/
def edgeStep (env : DfsEnv) (skip : Bool) (enter direct : DfsState → Run DfsState) (phase : GraphHopPhase)
    (s : DfsState) : Run (LoopStep DfsState) :=
  match env.shouldStop s with
  | (true, s) => some (.break s)
  | (false, s) =>
      if skip then some (.continue s)
      else
        match phase with
        | .enterPool => (enter s).map .continue
        | .direct => (direct s).map .continue
        | .exitPool => some (.continue s)

lemma takeEdge_eq : env.takeEdge visit call s ge =
    env.edgeStep false (visit (env.enterCall call ge)) (env.takeDirect visit call ge) ge.phase s := rfl

lemma openEdge_eq (pinOpen : Bool) : env.openEdge pinOpen s ge =
    env.edgeStep (pinOpen && !env.prep.edgeIsPin ge.edge.poolIndex)
      (env.dfs env.dfsFuel (env.enterCall env.openCall ge)) (env.openDirect ge) ge.phase s := rfl

/-- Once it has asked whether to stop. -/
lemma edgeStep_kept {skip : Bool} {enter direct : DfsState → Run DfsState} {phase : GraphHopPhase}
    (henter : phase = .enterPool → ∀ u, enter s.tick = some u → env.Kept ok s.tick u)
    (hdirect : phase = .direct → ∀ u, direct s.tick = some u → env.Kept ok s.tick u)
    (h : env.edgeStep skip enter direct phase s = some r) : env.Kept ok s.tick r.state := by
  rw [edgeStep] at h
  split at h
  · rename_i s₁ hstop
    cases h
    rw [shouldStop_snd hstop]
    exact .refl
  · rename_i s₁ hstop
    rw [shouldStop_snd hstop] at h
    split_ifs at h
    · cases h
      exact .refl
    cases phase with
    | enterPool =>
        rcases Option.map_eq_some_iff.mp h with ⟨u, hu, rfl⟩
        exact henter rfl u hu
    | direct =>
        rcases Option.map_eq_some_iff.mp h with ⟨u, hu, rfl⟩
        exact hdirect rfl u hu
    | exitPool =>
        cases h
        exact .refl

lemma takeEdge_kept (hvisit : env.Visits visit) (h : env.takeEdge visit call s ge = some r) :
    env.Kept (env.EdgeOk call ge s.tick) s.tick r.state :=
  edgeStep_kept (fun hphase u hu => (hvisit _ s.tick u hu).imp fun hok => hok.enter hphase)
    (fun hphase _ hu => takeDirect_kept hvisit hphase hu) (takeEdge_eq ▸ h)

lemma expand_kept (hvisit : env.Visits visit) (hnode : call.node < env.graph.tokenCount)
    (hclear : isMarked s.usedTokens call.node = false) (hlt : call.node < s.usedTokens.length)
    (hroom : call.hops + 1 ≤ max env.hopCap 1) (h : env.expand visit call s = some t) :
    env.Kept (env.WellFormed ∧ env.Trail call call.node s) s t := by
  rcases Option.map_eq_some_iff.mp h with ⟨u, hu, rfl⟩
  have hedges : env.Kept (env.WellFormed ∧ env.Trail call call.node s)
      (s.setToken call.node true) u := by
    refine tryForLoop_inv (fun u => env.Kept _ (s.setToken call.node true) u) _ _ u ?_ .refl hu
    intro ge hmem s₂ r hs₂ hr
    refine hs₂.trans (kept_tick.trans (takeEdge_kept hvisit hr) fun hok => EdgeOk.restored hok restored_tick) ?_
    rintro ⟨hwf, htrail⟩
    have hfresh : ∀ e ∈ s.path, e.tokenIn ≠ call.node := by
      intro e he heq
      have hset := htrail.tokens_marked e he
      rw [heq, hclear] at hset
      cases hset
    exact ⟨hwf, hnode, hmem, (htrail.setToken hlt hfresh hroom).restored hs₂.toRestored⟩
  exact hedges.setToken hclear

lemma visitToken_kept (hvisit : env.Visits visit) (hnode : call.node < env.graph.tokenCount)
    (h : env.visitToken visit call s = some t) :
    env.Kept (env.WellFormed ∧ env.Trail call call.node s) s t := by
  rw [visitToken] at h
  split_ifs at h with hout hclose hused
  · cases h
    exact .refl
  · cases h
    refine (closeCycle_kept (hclose.2 ▸ hnode) hclose.1).imp ?_
    rintro ⟨-, htrail⟩
    exact hclose.2 ▸ htrail
  · cases h
    exact .refl
  · cases h
    exact .refl
  · cases h
    exact .refl
  · rw [not_or, not_le] at hused
    exact expand_kept hvisit hnode (Bool.eq_false_of_not_eq_true hused.1) (not_le.mp hout) (by omega) h

/-- One level of the search, once it has asked whether to stop, keeps what the levels below keep. -/
lemma dfsBody_kept (hvisit : env.Visits visit) (h : env.dfsBody visit call s = some t) :
    env.Kept (env.CallOk call s.tick) s.tick t := by
  rw [dfsBody] at h
  split at h
  · rename_i s₁ hstop
    cases h
    rw [shouldStop_snd hstop]
    exact .refl
  · rename_i s₁ hstop
    rw [shouldStop_snd hstop] at h
    split_ifs at h with hvirtual
    · cases hpending : call.pending with
      | none =>
          rw [hpending] at h
          cases h
          exact .refl
      | some pending =>
          rw [hpending] at h
          refine (visitHub_kept hvisit h).imp ?_
          rintro ⟨hwf, hok⟩
          rw [hpending] at hok
          exact ⟨hwf, hok.2⟩
    · rw [RoutingGraph.isVirtualNode, decide_eq_true_eq, not_le] at hvirtual
      refine (visitToken_kept hvisit hvirtual h).imp ?_
      rintro ⟨hwf, hok⟩
      cases hpending : call.pending with
      | none =>
          rw [hpending] at hok
          exact ⟨hwf, hok⟩
      | some pending =>
          rw [hpending] at hok
          exact absurd hok.1 (not_le.mpr hvirtual)

/-- Every call of the search restores the scratch and emits as described. -/
theorem dfs_kept : ∀ fuel, env.Visits (env.dfs fuel)
  | 0 => by
      intro call s t h
      cases h
      exact .refl
  | fuel + 1 => fun _ _ _ h =>
      kept_tick.trans (dfsBody_kept (dfs_kept fuel) h) fun hok => hok.restored restored_tick

end Cases

/-! ## The search from one start -/

section Start

variable {ge : GraphEdge} {r : LoopStep DfsState}

/-- The first ratio counts as it is. -/
lemma mulRatioSaturating_one (ratio : U256) : mulRatioSaturating one18 ratio = ratio := by
  apply BitVec.eq_of_toNat_eq
  have hlt := toNat_lt ratio
  rw [toNat_mulRatioSaturating, toNat_one18, Nat.mul_div_cancel_left _ (by norm_num)]
  omega

lemma openDirect_kept (hphase : ge.phase = .direct) (h : env.openDirect ge s = some t) :
    env.Kept (env.EdgeOk env.openCall ge s) s t := by
  rw [openDirect] at h
  dsimp only at h
  split_ifs at h with _ _ hbudget
  · cases h
    exact .refl
  · cases h
    exact .refl
  · cases h
    exact .refl
  cases hmark : s.markPool ge.edge.poolIndex with
  | none =>
      rw [hmark] at h
      cases h
      exact .refl
  | some s₁ =>
      rw [hmark] at h
      rcases Option.map_eq_some_iff.mp h with ⟨u, hu, rfl⟩
      refine ((descend_kept (dfs_kept env.dfsFuel) hu).imp fun hok => ?_).unmarkPool hmark
      rw [← mulRatioSaturating_one ge.ratio]
      exact hok.direct hphase hmark (Bool.eq_false_of_not_eq_true hbudget)

lemma openEdge_kept {pinOpen : Bool} (h : env.openEdge pinOpen s ge = some r) :
    env.Kept (env.EdgeOk env.openCall ge s.tick) s.tick r.state :=
  edgeStep_kept (fun hphase u hu => (dfs_kept env.dfsFuel _ s.tick u hu).imp fun hok => hok.enter hphase)
    (fun hphase _ hu => openDirect_kept hphase hu) (openEdge_eq pinOpen ▸ h)

/-- The empty path leads to the start. -/
lemma trail_openCall (hpath : s.path = []) : env.Trail env.openCall env.start s where
  walk := hpath ▸ .nil
  hops := by rw [hpath]; rfl
  hops_le := Nat.zero_le _
  pools := by simp [hpath]
  pools_marked := by simp [hpath]
  tokens := by simp [hpath]
  tokens_marked := by simp [hpath]
  ratio := ⟨[], hpath ▸ .nil, rfl⟩
  calls := by rw [hpath]; rfl

lemma searchFromStart_kept (hpath : s.path = []) (hclear : isMarked s.usedTokens env.start = false)
    (h : env.searchFromStart s = some t) :
    env.Kept (env.WellFormed ∧ env.start < env.graph.tokenCount) s t := by
  rw [searchFromStart] at h
  split_ifs at h with hout
  · cases h
    exact .refl
  rw [not_or, not_le] at hout
  rcases Option.map_eq_some_iff.mp h with ⟨u, hu, rfl⟩
  have hedges : env.Kept (env.WellFormed ∧ env.start < env.graph.tokenCount)
      (s.setToken env.start true) u := by
    refine tryForLoop_inv (fun u => env.Kept _ (s.setToken env.start true) u) _ _ u ?_ .refl hu
    intro ge hmem s₂ r hs₂ hr
    refine hs₂.trans (kept_tick.trans (openEdge_kept hr) fun hok => EdgeOk.restored hok restored_tick) ?_
    rintro ⟨hwf, hstart⟩
    have hopen : env.OpenTrail env.openCall env.start (s.setToken env.start true) :=
      (trail_openCall hpath).setToken hout.1 (by simp [hpath]) (le_max_right _ _)
    exact ⟨hwf, hstart, hmem, hopen.restored hs₂.toRestored⟩
  exact hedges.setToken hclear

/-- Whatever the start is, what is emitted from nothing is as described. -/
lemma Kept.emitted (h : env.Kept (env.WellFormed ∧ env.start < env.graph.tokenCount) s t)
    (hwf : env.WellFormed) (hnone : s.cycles = []) : ∀ c ∈ t.cycles, env.Emitted c := by
  intro c hc
  by_cases hstart : env.start < env.graph.tokenCount
  · rcases h.emits ⟨hwf, hstart⟩ c hc with hold | hnew
    · rw [hnone] at hold
      cases hold
    · exact hnew
  · rw [h.stray (not_lt.mp hstart), hnone] at hc
    cases hc

end Start

end DfsEnv

/-! ## Fuel -/

namespace DfsEnv

section Fuel

variable {env : DfsEnv} {visit visit' : DfsCall → DfsState → Run DfsState} {call : DfsCall}

/-- A hub is only called with a pending swap. -/
def HubCall (env : DfsEnv) (call : DfsCall) : Prop :=
  call.pending.isSome = true → env.graph.tokenCount ≤ call.node

/-- The levels a call may go down: two for every hop that is left. -/
def levels (env : DfsEnv) (call : DfsCall) : ℕ :=
  if call.pending.isSome then 2 * (env.hopCap - (call.hops + 1)) + 2
  else 2 * (env.hopCap - call.hops) + 1

lemma descend_congr (h : ∀ next, next.pending = none → next.hops = call.hops + 1 →
      visit' next = visit next) (edge : Edge) (node : ℕ) (logW : Float) (ratio : U256) (pin : Bool)
    (s : DfsState) :
    descend visit' edge (nextCall call edge node logW ratio pin) s =
      descend visit edge (nextCall call edge node logW ratio pin) s := by
  rw [descend, descend, h (nextCall call edge node logW ratio pin) rfl rfl]

lemma visitHub_congr (h : ∀ next, next.pending = none → next.hops = call.hops + 1 →
      visit' next = visit next) (pending : PendingHubSwap) (s : DfsState) :
    env.visitHub visit' call pending s = env.visitHub visit call pending s := by
  have hleg : ∀ pool state leg s, env.takeLeg visit' call pending pool state leg s =
      env.takeLeg visit call pending pool state leg s := by
    intro pool state leg s
    simp only [takeLeg, descend_congr h]
  have hlegs : env.exitLeg visit' call pending = env.exitLeg visit call pending := by
    funext pool state s leg
    simp only [exitLeg, hleg]
  rw [visitHub, visitHub, hlegs]

lemma expand_congr (hwf : env.WellFormed) (hnode : call.node < env.graph.tokenCount)
    (hnext : ∀ next, next.pending = none → next.hops = call.hops + 1 → visit' next = visit next)
    (henter : ∀ next, env.graph.tokenCount ≤ next.node → next.pending.isSome = true →
      next.hops = call.hops → visit' next = visit next) (s : DfsState) :
    env.expand visit' call s = env.expand visit call s := by
  have hdirect : ∀ ge s, env.takeDirect visit' call ge s = env.takeDirect visit call ge s := by
    intro ge s
    simp only [takeDirect, descend_congr hnext]
  have hedge : ∀ ge ∈ env.prep.edgesAt call.node, ∀ s,
      env.takeEdge visit' call s ge = env.takeEdge visit call s ge := by
    intro ge hmem s
    cases hphase : ge.phase with
    | enterPool =>
        have hhub := hwf.enter call.node hnode ge hmem hphase
        simp only [takeEdge, hphase, henter (env.enterCall call ge) hhub rfl rfl]
    | direct => simp only [takeEdge, hphase, hdirect]
    | exitPool => simp only [takeEdge, hphase]
  rw [expand, expand, tryForLoop_congr (env.prep.edgesAt call.node) _ hedge]

/-- A token at the hop limit is not expanded. -/
lemma visitToken_congr {s : DfsState}
    (h : call.hops < env.hopCap → env.expand visit' call s = env.expand visit call s) :
    env.visitToken visit' call s = env.visitToken visit call s := by
  rw [visitToken, visitToken]
  by_cases hroom : call.hops < env.hopCap
  · rw [h hroom]
  · have hfull : isMarked s.usedTokens call.node = true ∨ env.hopCap ≤ call.hops :=
      .inr (not_lt.mp hroom)
    rw [if_pos hfull, if_pos hfull]

lemma dfsBody_congr {s : DfsState}
    (hhub : ∀ pending s, call.pending = some pending →
      env.visitHub visit' call pending s = env.visitHub visit call pending s)
    (htoken : ∀ s, call.node < env.graph.tokenCount →
      env.visitToken visit' call s = env.visitToken visit call s) :
    env.dfsBody visit' call s = env.dfsBody visit call s := by
  rw [dfsBody, dfsBody]
  split
  · rfl
  · split_ifs with hvirtual
    · cases hpending : call.pending with
      | none => rfl
      | some pending => exact hhub pending _ hpending
    · rw [RoutingGraph.isVirtualNode, decide_eq_true_eq, not_le] at hvirtual
      exact htoken _ hvirtual

/-- A call that cannot go further down than the fuel lasts does not notice more of it. -/
lemma dfs_succ (hwf : env.WellFormed) :
    ∀ (fuel : ℕ) (call : DfsCall), env.HubCall call → env.levels call ≤ fuel →
      env.dfs (fuel + 1) call = env.dfs fuel call
  | 0, call, _, hle => by
      rw [levels] at hle
      split_ifs at hle <;> omega
  | fuel + 1, call, hhub, hle => by
      have ih := dfs_succ hwf fuel
      have hnext : ∀ next : DfsCall, next.pending = none → 2 * (env.hopCap - next.hops) + 1 ≤ fuel →
          env.dfs (fuel + 1) next = env.dfs fuel next := by
        intro next hnone hfuel
        refine ih next (by simp [HubCall, hnone]) ?_
        rw [levels, hnone]
        exact hfuel
      have henter : ∀ next : DfsCall, env.graph.tokenCount ≤ next.node →
          next.pending.isSome = true → 2 * (env.hopCap - (next.hops + 1)) + 2 ≤ fuel →
            env.dfs (fuel + 1) next = env.dfs fuel next := by
        intro next hnode hsome hfuel
        refine ih next (fun _ => hnode) ?_
        rw [levels, if_pos hsome]
        exact hfuel
      funext s
      refine dfsBody_congr (fun pending s hpending => ?_) fun s hnode => ?_
      · rw [levels, hpending, Option.isSome_some, if_pos rfl] at hle
        exact visitHub_congr (fun next hnone hhops => hnext next hnone (by omega)) pending s
      · have hnone : call.pending.isSome = false := by
          by_contra hsome
          exact absurd (hhub (Bool.eq_true_of_not_eq_false hsome)) (not_le.mpr hnode)
        rw [levels, hnone] at hle
        simp only [Bool.false_eq_true, if_false] at hle
        refine visitToken_congr fun hroom => ?_
        exact expand_congr hwf hnode (fun next hnone' hhops => hnext next hnone' (by omega))
          (fun next hnode' hsome hhops => henter next hnode' hsome (by omega)) s

/-- `dfsFuel` is as good as any fuel above it. -/
theorem dfs_of_le (hwf : env.WellFormed) (hhub : env.HubCall call) {fuel : ℕ}
    (hle : env.dfsFuel ≤ fuel) : env.dfs fuel call = env.dfs env.dfsFuel call := by
  have henough : env.levels call ≤ env.dfsFuel := by
    rw [levels, dfsFuel]
    split_ifs <;> omega
  induction fuel, hle using Nat.le_induction with
  | base => rfl
  | succ fuel hle ih =>
      rw [dfs_succ hwf fuel call hhub (henough.trans hle), ih]

end Fuel

end DfsEnv

/-! ## One search after another -/

/-- No flag is set. -/
structure DfsScratch.Clear (scratch : DfsScratch) : Prop where
  usedPools : ∀ i, isMarked scratch.usedPools i = false
  usedTokens : ∀ i, isMarked scratch.usedTokens i = false

/-- The scratch of a thread: an empty one at first, then what its searches leave behind. -/
inductive ThreadScratch : DfsScratch → Prop
  | empty : ThreadScratch ⟨[], [], []⟩
  | search {env : DfsEnv} {scratch scratch' : DfsScratch} {cycles : List FoundCycle}
      (before : ThreadScratch scratch)
      (run : collectCyclesDfsSingleStart env scratch = some (cycles, scratch')) :
      ThreadScratch scratch'

lemma isMarked_clearUpTo {used : List Bool} (h : ∀ i, isMarked used i = false) (n i : ℕ) :
    isMarked (clearUpTo used n) i = false := by
  by_cases hi : i < n
  · rw [isMarked, clearUpTo, List.getElem?_append_left (by simpa using hi)]
    simp [hi]
  · have hdrop : isMarked (clearUpTo used n) i = isMarked used i := by
      simp only [isMarked, clearUpTo]
      rw [List.getElem?_append_right (by simpa using hi), List.getElem?_drop]
      congr 2
      simp only [List.length_replicate]
      omega
    rw [hdrop, h i]

lemma DfsScratch.Clear.prepared {scratch : DfsScratch} (h : scratch.Clear) (env : DfsEnv) :
    (env.prepared scratch).Clear where
  usedPools i := by
    rw [DfsEnv.prepared, DfsScratch.prepare]
    dsimp only
    split_ifs
    · rw [isMarked_append_replicate, h.usedPools i]
    · exact isMarked_clearUpTo h.usedPools _ i
  usedTokens i := by
    rw [DfsEnv.prepared, DfsScratch.prepare]
    dsimp only
    split_ifs
    · rw [isMarked_append_replicate, h.usedTokens i]
    · exact isMarked_clearUpTo h.usedTokens _ i

lemma DfsScratch.Clear.restored {scratch scratch' : DfsScratch} (h : scratch.Clear)
    (hs : scratch.Restored scratch') : scratch'.Clear where
  usedPools i := (hs.usedPools i).trans (h.usedPools i)
  usedTokens i := hs.usedTokens ▸ h.usedTokens i

/-- What a search from one start keeps, on a scratch without flags. -/
lemma collectCyclesDfsSingleStart_kept {env : DfsEnv} {scratch scratch' : DfsScratch}
    {cycles : List FoundCycle} (hclear : scratch.Clear)
    (h : collectCyclesDfsSingleStart env scratch = some (cycles, scratch')) :
    (env.prepared scratch).Restored scratch' ∧ (env.WellFormed → ∀ c ∈ cycles, env.Emitted c) := by
  rcases Option.map_eq_some_iff.mp h with ⟨t, ht, heq⟩
  cases heq
  have hkept := DfsEnv.searchFromStart_kept rfl ((hclear.prepared env).usedTokens env.start) ht
  exact ⟨hkept.toRestored, fun hwf => hkept.emitted hwf rfl⟩

lemma ThreadScratch.clear {scratch : DfsScratch} (h : ThreadScratch scratch) : scratch.Clear := by
  induction h with
  | empty => exact ⟨fun _ => rfl, fun _ => rfl⟩
  | @search env scratch scratch' cycles _ hrun ih =>
      exact (ih.prepared env).restored (collectCyclesDfsSingleStart_kept ih hrun).1

/-! ## Graphs -/

/-- Every edge is one of the graph, though its price may be another. -/
def ActiveGraph.DrawnFrom (active : ActiveGraph) (graph : RoutingGraph) : Prop :=
  ∀ node, ∀ ge ∈ active.edgesAt node, ∃ ge' ∈ graph.edgesAt node,
    ge'.edge = ge.edge ∧ ge'.phase = ge.phase ∧ ge'.targetNode = ge.targetNode

lemma ActiveGraph.DrawnFrom.wellFormed {env : DfsEnv} (hprep : env.prep.DrawnFrom env.graph)
    (h : EdgesWellFormed env.graph.tokenCount env.graph.edgesAt) : env.WellFormed where
  token_in node hnode ge hmem := by
    rcases hprep node ge hmem with ⟨ge', hmem', hedge, -, -⟩
    exact hedge ▸ h.token_in node hnode ge' hmem'
  direct node hnode ge hmem hphase := by
    rcases hprep node ge hmem with ⟨ge', hmem', hedge, hphase', htarget⟩
    rw [← hedge, ← htarget]
    exact h.direct node hnode ge' hmem' (hphase'.trans hphase)
  enter node hnode ge hmem hphase := by
    rcases hprep node ge hmem with ⟨ge', hmem', -, hphase', htarget⟩
    exact htarget ▸ h.enter node hnode ge' hmem' (hphase'.trans hphase)

/-- Every cycle a search emits is closed and simple, within the limits and with the ratio of its hops,
and every call leaves the scratch as it found it. -/
theorem collectCyclesDfsSingleStart_emits {env : DfsEnv}
    (hgraph : EdgesWellFormed env.graph.tokenCount env.graph.edgesAt)
    (hprep : env.prep.DrawnFrom env.graph) {scratch scratch' : DfsScratch} {cycles : List FoundCycle}
    (hscratch : ThreadScratch scratch)
    (h : collectCyclesDfsSingleStart env scratch = some (cycles, scratch')) :
    (∀ c ∈ cycles, env.Emitted c) ∧ (env.prepared scratch).Restored scratch' ∧
      ∀ fuel call (s s' : DfsState), env.dfs fuel call s = some s' →
        s.toDfsScratch.Restored s'.toDfsScratch := by
  have hkept := collectCyclesDfsSingleStart_kept hscratch.clear h
  exact ⟨hkept.2 (hprep.wellFormed hgraph), hkept.1, fun fuel call s s' hrun =>
    (DfsEnv.dfs_kept fuel call s s' hrun).toRestored⟩

/-! ### Two pools that pay, and an enter edge that leads to a token -/

/-- A graph all of whose edges are walked. -/
def wholeGraph (graph : RoutingGraph) (pins : Option (List PoolIndex)) : ActiveGraph where
  adjacency := graph.adjacency
  startTokens := [0]
  hubHeavy := false
  minOutgoingWeight := graph.adjacency.map fun _ => 0.0
  globalMinLiveEdgeWeight := 0.0
  maxOutgoingRatio := graph.adjacency.map fun _ => 1100000000000000000#256
  globalMaxLiveEdgeRatio := 1100000000000000000#256
  firstHopPools := pins

lemma wholeGraph_drawnFrom (graph : RoutingGraph) (pins : Option (List PoolIndex)) :
    (wholeGraph graph pins).DrawnFrom graph := by
  intro node ge hmem
  exact ⟨ge, hmem, rfl, rfl, rfl⟩

/-- Two pools between two tokens that pay ten percent.  The fifth answer grants the cycle. -/
def twoPoolEnv : DfsEnv where
  graph := twoPoolGraph 1100000000000000000#256 none
  arena := hubArena
  poolMetas := hubMetas
  prep := wholeGraph (twoPoolGraph 1100000000000000000#256 none) none
  start := 0
  hopLimit := 2
  maxCycles := 8
  answers := fun n => n == 4

theorem collectCyclesDfsSingleStart_emits_twoPool :
    ∃ cycles scratch', collectCyclesDfsSingleStart twoPoolEnv ⟨[], [], []⟩ = some (cycles, scratch') ∧
      cycles.length = 1 ∧ ∀ c ∈ cycles, twoPoolEnv.Emitted c := by
  have hgraph : EdgesWellFormed twoPoolEnv.graph.tokenCount twoPoolEnv.graph.edgesAt :=
    ⟨by decide, by decide, by decide⟩
  have hcount : ((collectCyclesDfsSingleStart twoPoolEnv ⟨[], [], []⟩).map fun r => r.1.length) =
      some 1 := by
    decide
  rcases Option.map_eq_some_iff.mp hcount with ⟨⟨cycles, scratch'⟩, hrun, hlen⟩
  exact ⟨cycles, scratch', hrun, hlen,
    (collectCyclesDfsSingleStart_emits hgraph (wholeGraph_drawnFrom _ _) .empty hrun).1⟩

/-- The enter edge of token 1 leads to token 2, and pool 7 is not in the tables. -/
def strayGraph : RoutingGraph where
  adjacency :=
    [[directEdge 0 0 1 one18], [hubEdge .enterPool 1 2],
      [directEdge 7 2 0 1100000000000000000#256]]
  tokenCount := 3
  virtualHubs := []
  poolSlots := 0
  coverage := none

def strayEnv : DfsEnv where
  graph := strayGraph
  arena := hubArena
  poolMetas := hubMetas
  prep := wholeGraph strayGraph (some [0])
  start := 0
  hopLimit := 4
  maxCycles := 8
  answers := fun n => n == 6

/-- The search goes from token 1 to token 2 without a hop, and the flags of the pools have grown. -/
theorem collectCyclesDfsSingleStart_stray :
    (∀ node < 3, ∀ ge ∈ strayGraph.edgesAt node, ge.edge.tokenIn = node ∧
      (ge.phase = .direct → ge.targetNode = ge.edge.tokenOut)) ∧
    ∃ cycles scratch', collectCyclesDfsSingleStart strayEnv ⟨[], [], []⟩ = some (cycles, scratch') ∧
      (∃ c ∈ cycles, ¬ Walk strayEnv.start c.edges strayEnv.start) ∧
      scratch'.usedPools ≠ (strayEnv.prepared ⟨[], [], []⟩).usedPools := by
  refine ⟨by decide, ?_⟩
  have heval : ((collectCyclesDfsSingleStart strayEnv ⟨[], [], []⟩).map fun r =>
      (r.1.map FoundCycle.edges, r.2.usedPools.length)) =
        some ([[(directEdge 0 0 1 one18).edge,
          (directEdge 7 2 0 1100000000000000000#256).edge]], 8) := by
    decide
  rcases Option.map_eq_some_iff.mp heval with ⟨⟨cycles, scratch'⟩, hrun, hresult⟩
  simp only [Prod.mk.injEq] at hresult
  refine ⟨cycles, scratch', hrun, ?_, ?_⟩
  · have hmem : [(directEdge 0 0 1 one18).edge, (directEdge 7 2 0 1100000000000000000#256).edge] ∈
        cycles.map FoundCycle.edges := by
      rw [hresult.1]
      exact List.mem_cons_self
    rcases List.mem_map.mp hmem with ⟨c, hc, hedges⟩
    refine ⟨c, hc, fun hwalk => ?_⟩
    rw [hedges] at hwalk
    have hsecond := (walk_cons.mp (walk_cons.mp hwalk).2).1
    exact absurd hsecond (by decide)
  · intro heq
    have hlen := hresult.2
    rw [heq] at hlen
    exact absurd hlen (by decide)

end PolygonArb

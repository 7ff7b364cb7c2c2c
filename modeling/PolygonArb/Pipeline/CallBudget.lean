import PolygonArb.Pipeline.CycleDfsInvariant
import PolygonArb.Pipeline.NegativeCycle

/-!
# The two call budgets

The depth-first search charges a path hop by hop (`pathCalls`) and gives it up above
`MAX_EXECUTOR_CALLS`.  The Bellman-Ford search and the execution gate count the packed calls of a
whole route instead, in which a run of V2 hops shares its prefund and a short Balancer route is one
call (`routeFitsExecutor`).

The sum only grows along a path, so every prefix of a route is within the budget as soon as the route
is (`pathCalls_le_of_prefix`).  The route is when its hops and its hops outside V3 are at most twelve
together, and that decides whether the search gets to the end of an executable route
(`pathBudget_accepts_iff`): seven V2 hops are eight packed calls and fourteen charged ones.
-/

namespace PolygonArb

open Word

/-! ## The sum of the search -/

/-- What the search has charged for a path. -/
def pathCalls (path : List Edge) : ℕ :=
  path.foldl (fun calls edge => addCalls calls (estimateHopCalls edge.protocol)) 0

@[simp] lemma pathCalls_push (path : List Edge) (edge : Edge) :
    pathCalls (path ++ [edge]) = addCalls (pathCalls path) (estimateHopCalls edge.protocol) := by
  simp [pathCalls]

/-- The calls the search makes at the end of a path: at the start, for a hub, and after another hop. -/
inductive DfsEnv.CalledAt (env : DfsEnv) : List Edge → DfsCall → Prop
  | start : CalledAt env [] env.openCall
  | enter {path : List Edge} {call : DfsCall} (ge : GraphEdge) (h : CalledAt env path call) :
      CalledAt env path (env.enterCall call ge)
  | next {path : List Edge} {call : DfsCall} (edge : Edge) (node : ℕ) (logW : Float) (ratio : U256)
      (pin : Bool) (h : CalledAt env path call) :
      CalledAt env (path ++ [edge]) (DfsEnv.nextCall call edge node logW ratio pin)

namespace DfsEnv.CalledAt

variable {env : DfsEnv} {path : List Edge} {call : DfsCall}

/-- A call carries the sum of its path. -/
lemma pathHopCalls_eq (h : env.CalledAt path call) : call.pathHopCalls = pathCalls path := by
  induction h with
  | start => rfl
  | enter ge _ ih => exact ih
  | next edge node logW ratio pin _ ih =>
      rw [pathCalls_push, ← ih]
      rfl

lemma exists_call (env : DfsEnv) (path : List Edge) : ∃ call, env.CalledAt path call := by
  induction path using List.reverseRecOn with
  | nil => exact ⟨_, .start⟩
  | append_singleton path edge ih =>
      rcases ih with ⟨call, hcall⟩
      exact ⟨_, .next edge edge.tokenOut call.logW call.productRatio call.pinTouched hcall⟩

end DfsEnv.CalledAt

/-- Two calls for every hop, but for a V3 hop one. -/
lemma estimateHopCalls_eq (protocol : ProtocolType) :
    estimateHopCalls protocol = if protocol ≠ .uniswapV3 then 2 else 1 := by
  cases protocol <;> rfl

lemma hopCallSum_eq (path : List Edge) :
    hopCallSum path = path.length + path.countP fun e => e.protocol ≠ .uniswapV3 := by
  induction path with
  | nil => rfl
  | cons edge path ih =>
      have hcons : hopCallSum (edge :: path) = estimateHopCalls edge.protocol + hopCallSum path := by
        simp [hopCallSum]
      rw [hcons, ih, estimateHopCalls_eq, List.length_cons, List.countP_cons]
      by_cases hv3 : edge.protocol = .uniswapV3
      · simp [hv3]
        omega
      · simp [hv3]
        omega

/-- The sixteen bits of the sum are the only difference to the sum over the naturals. -/
lemma pathCalls_eq (path : List Edge) : pathCalls path = min (hopCallSum path) (2 ^ 16 - 1) := by
  induction path using List.reverseRecOn with
  | nil => rfl
  | append_singleton path edge ih =>
      rw [pathCalls_push, ih, DfsEnv.hopCallSum_push, addCalls]
      omega

/-- A longer path is charged at least as much. -/
lemma pathCalls_le_of_prefix {path edges : List Edge} (h : path <+: edges) :
    pathCalls path ≤ pathCalls edges := by
  rcases h with ⟨rest, rfl⟩
  rw [pathCalls_eq, pathCalls_eq]
  have hsum : hopCallSum (path ++ rest) = hopCallSum path + hopCallSum rest := by simp [hopCallSum]
  omega

lemma withinBudget_iff (path : List Edge) :
    routeHopBudgetExceeded (pathCalls path) = false ↔
      path.length + (path.countP fun e => e.protocol ≠ .uniswapV3) ≤ maxExecutorCalls := by
  rw [routeHopBudgetExceeded, packedCallsFitExecutor, Bool.not_eq_false', decide_eq_true_eq,
    pathCalls_eq, ← hopCallSum_eq, maxExecutorCalls]
  omega

/-! ## Executable routes -/

/-- A simple closed route within the hop limit that the execution gate lets through. -/
structure ExecutableRoute (hopLimit : ℕ) (start : TokenIndex) (edges : List Edge) : Prop where
  closed : Walk start edges start
  pools : (edges.map Edge.poolIndex).Nodup
  tokens : (edges.map Edge.tokenIn).Nodup
  two_le : 2 ≤ edges.length
  le_cap : edges.length ≤ min hopLimit hopCap
  fits : routeFitsExecutor edges = true

/-- Every call along a prefix of an executable route is within the budget if and only if the hops of the
route and its hops outside V3 do not exceed the calls of the executor. -/
theorem pathBudget_accepts_iff (env : DfsEnv) (start : TokenIndex) (edges : List Edge) :
    (ExecutableRoute env.hopLimit start edges → ∀ path call, path <+: edges → env.CalledAt path call →
        routeHopBudgetExceeded call.pathHopCalls = false) ↔
      (ExecutableRoute env.hopLimit start edges →
        edges.length + (edges.countP fun e => e.protocol ≠ .uniswapV3) ≤ maxExecutorCalls) := by
  refine forall_congr' fun _ => ?_
  rw [← withinBudget_iff]
  constructor
  · intro hall
    rcases DfsEnv.CalledAt.exists_call env edges with ⟨call, hcall⟩
    rw [← hcall.pathHopCalls_eq]
    exact hall edges call (List.prefix_refl edges) hcall
  · intro hroute path call hpath hcall
    have hle := pathCalls_le_of_prefix hpath
    rw [← hcall.pathHopCalls_eq] at hle
    simp only [routeHopBudgetExceeded, packedCallsFitExecutor, Bool.not_eq_false',
      decide_eq_true_eq] at hroute ⊢
    exact hle.trans hroute

/-! ### Seven V2 pools in a ring -/

/-- From every token to the next one, through pools of one kind that pay ten percent. -/
def sevenRingEdge (protocol : ProtocolType) (i : ℕ) : GraphEdge :=
  let ge := directEdge i i ((i + 1) % 7) 1100000000000000000#256
  { ge with edge := { ge.edge with protocol := protocol }, logWeight := -1.0 }

def ringGraph (protocol : ProtocolType) : RoutingGraph where
  adjacency := (List.range 7).map fun i => [sevenRingEdge protocol i]
  tokenCount := 7
  virtualHubs := []
  poolSlots := 7
  coverage := none

/-- The fifteenth answer grants the cycle. -/
def ringEnv (protocol : ProtocolType) : DfsEnv where
  graph := ringGraph protocol
  arena := hubArena
  poolMetas := hubMetas
  prep := wholeGraph (ringGraph protocol) none
  start := 0
  hopLimit := 8
  maxCycles := 8
  answers := fun n => n == 14

def ringRoute (protocol : ProtocolType) : List Edge :=
  (List.range 7).map fun i => (sevenRingEdge protocol i).edge

lemma executableRoute_ring (protocol : ProtocolType) (h : protocol = .uniswapV2 ∨ protocol = .uniswapV3) :
    ExecutableRoute 8 0 (ringRoute protocol) where
  closed := by
    rw [ringRoute, show List.range 7 = [0, 1, 2, 3, 4, 5, 6] from rfl]
    simp only [List.map_cons, List.map_nil, walk_cons, walk_nil]
    exact ⟨rfl, rfl, rfl, rfl, rfl, rfl, rfl, rfl⟩
  pools := by
    rcases h with rfl | rfl <;> decide
  tokens := by
    rcases h with rfl | rfl <;> decide
  two_le := by
    rcases h with rfl | rfl <;> decide
  le_cap := by
    rcases h with rfl | rfl <;> decide
  fits := by
    rcases h with rfl | rfl <;> decide

lemma dfs_ring_v2 :
    ((collectCyclesDfsSingleStart (ringEnv .uniswapV2) ⟨[], [], []⟩).map fun r =>
      r.1.map FoundCycle.edges) = some [] := by
  decide +kernel

lemma dfs_ring_v3 :
    ((collectCyclesDfsSingleStart (ringEnv .uniswapV3) ⟨[], [], []⟩).map fun r =>
      r.1.map FoundCycle.edges) = some [ringRoute .uniswapV3] := by
  decide +kernel

/-- Seven V2 hops fit the executor, and the Bellman-Ford search takes them for eight calls, but the
seventh hop is over the budget of the depth-first search.  With V3 pools it finds the ring. -/
theorem pathBudget_rejects_ring :
    ExecutableRoute 8 0 (ringRoute .uniswapV2) ∧ isSimpleCycle (ringRoute .uniswapV2) = some 8 ∧
      (∃ path call, path <+: ringRoute .uniswapV2 ∧ (ringEnv .uniswapV2).CalledAt path call ∧
        routeHopBudgetExceeded call.pathHopCalls = true) ∧
      ((collectCyclesDfsSingleStart (ringEnv .uniswapV2) ⟨[], [], []⟩).map fun r =>
        r.1.map FoundCycle.edges) = some [] ∧
      ((collectCyclesDfsSingleStart (ringEnv .uniswapV3) ⟨[], [], []⟩).map fun r =>
        r.1.map FoundCycle.edges) = some [ringRoute .uniswapV3] := by
  refine ⟨executableRoute_ring _ (.inl rfl), by decide, ?_, dfs_ring_v2, dfs_ring_v3⟩
  rcases DfsEnv.CalledAt.exists_call (ringEnv .uniswapV2) (ringRoute .uniswapV2) with ⟨call, hcall⟩
  have hsum : call.pathHopCalls = 14 := hcall.pathHopCalls_eq.trans (by decide)
  refine ⟨ringRoute .uniswapV2, call, List.prefix_refl _, hcall, ?_⟩
  rw [hsum]
  rfl

end PolygonArb

import PolygonArb.Pipeline.Prune
import PolygonArb.Pipeline.RouteCalls

/-!
# The depth-first cycle search

`collect_cycles_dfs_single_start` of `pipeline/cycle_finder.rs`.  The search walks the active graph
from one start token, marks the pools and tokens of its path, and records the path when it is back at
the start.  A hub is entered on one edge and left through any of its legs, which makes one hop.

The marks and the path are one mutable scratch, so they are a state here, and every way out of a call
has to undo what the call did.  The deadline and the cap shared with other threads may answer anything
at any time: `answers` holds the answers in the order they are asked for.  The recursion is on
`fuel`, of which `dfsFuel` is enough (`DfsEnv.dfs_of_le`).
-/

namespace PolygonArb

open Word Loop

/-! ## Pruning -/

def routeHopBudgetExceeded (hopCallSum : ℕ) : Bool := !packedCallsFitExecutor hopCallSum

def canStillBeNegative (logWeight : Float) (hops hopCap : ℕ) (curr : TokenIndex)
    (minOutgoing : List Float) (globalMin : Float) : Bool :=
  let closePenalty := hopPenalty (max hopCap 2)
  let remaining := hopCap - hops
  if remaining = 0 then decide (logWeight + closePenalty ≤ 0.0)
  else
    let first := (minOutgoing[curr]?).getD f64Infinity
    if !first.isFinite then false
    else
      let tail := if remaining = 1 then 0.0 else (UInt64.ofNat (remaining - 1)).toFloat * globalMin
      decide (logWeight + first + tail + closePenalty ≤ 0.0)

def ActiveGraph.edgeIsPin (prep : ActiveGraph) (pool : PoolIndex) : Bool :=
  prep.firstHopPools.any fun pins => pins.contains pool

/-- A path through a pinned pool is always kept. -/
def canStillFindProfitableCycle (logWeight : Float) (productRatio : U256) (hops hopCap : ℕ)
    (curr : TokenIndex) (prep : ActiveGraph) (pinTouched : Bool) : Bool :=
  if pinTouched then true
  else if one18 < productRatio ∧ minProfitableCycleRatio (max hops 2) ≤ productRatio then true
  else if !canStillBeNegative logWeight hops hopCap curr prep.minOutgoingWeight
      prep.globalMinLiveEdgeWeight then false
  else
    canStillBeProfitableU256 productRatio hops hopCap curr prep.maxOutgoingRatio
      prep.globalMaxLiveEdgeRatio

/-! ## The scratch -/

/-- The flag of a slot; there is none past the end. -/
def isMarked (used : List Bool) (i : ℕ) : Bool := (used[i]?).getD false

/-- Grow the flags to the slot and set it, unless it is set already. -/
def poolMark (used : List Bool) (pool : PoolIndex) : Option (List Bool) :=
  let used := used ++ List.replicate (pool + 1 - used.length) false
  if isMarked used pool then none else some (used.set pool true)

def poolUnmark (used : List Bool) (pool : PoolIndex) : List Bool := used.set pool false

structure DfsScratch where
  usedPools : List Bool
  usedTokens : List Bool
  path : List Edge

/-- Slots below the new bound are cleared, those above it are kept. -/
def clearUpTo (used : List Bool) (slots : ℕ) : List Bool :=
  List.replicate slots false ++ used.drop slots

def DfsScratch.prepare (scratch : DfsScratch) (poolSlots tokenCount : ℕ) : DfsScratch where
  usedPools :=
    if scratch.usedPools.length < poolSlots then
      scratch.usedPools ++ List.replicate (poolSlots - scratch.usedPools.length) false
    else clearUpTo scratch.usedPools poolSlots
  usedTokens :=
    if scratch.usedTokens.length < tokenCount then
      scratch.usedTokens ++ List.replicate (tokenCount - scratch.usedTokens.length) false
    else clearUpTo scratch.usedTokens tokenCount
  path := []

/-- What the search changes: the scratch, the cycles found, and how often the oracle was asked. -/
structure DfsState extends DfsScratch where
  cycles : List FoundCycle
  seen : List (List Edge)
  asked : ℕ

/-- What stays the same during the search from one start. -/
structure DfsEnv where
  graph : RoutingGraph
  arena : StateArena
  poolMetas : ℕ → Option PoolMeta
  prep : ActiveGraph
  start : TokenIndex
  hopLimit : ℕ
  maxCycles : ℕ
  /-- The answers of the deadline and of the shared cap. -/
  answers : ℕ → Bool

/-- The arguments of a call. -/
structure DfsCall where
  node : ℕ
  pending : Option PendingHubSwap
  pathHopCalls : ℕ
  hops : ℕ
  logW : Float
  productRatio : U256
  cumFee : ℕ
  pinTouched : Bool

namespace DfsState

variable (s : DfsState)

def push (edge : Edge) : DfsState := { s with path := s.path ++ [edge] }

def pop : DfsState := { s with path := s.path.dropLast }

def markPool (pool : PoolIndex) : Option DfsState :=
  (poolMark s.usedPools pool).map fun used => { s with usedPools := used }

def unmarkPool (pool : PoolIndex) : DfsState := { s with usedPools := poolUnmark s.usedPools pool }

def setToken (token : TokenIndex) (flag : Bool) : DfsState :=
  { s with usedTokens := s.usedTokens.set token flag }

/-- The oracle was asked once more. -/
def tick : DfsState := { s with asked := s.asked + 1 }

end DfsState

/-! ## The search -/

/-- A saturating sixteen-bit sum. -/
def addCalls (a b : ℕ) : ℕ := min (a + b) (2 ^ 16 - 1)

namespace DfsEnv

variable (env : DfsEnv)

def hopCap : ℕ := min env.hopLimit PolygonArb.hopCap

/-- One answer of the oracle. -/
def ask (s : DfsState) : Bool × DfsState := (env.answers s.asked, s.tick)

/-- `budget.tick() || cycles.len() >= max_cycles || global_cap.is_full()`. -/
def shouldStop (s : DfsState) : Bool × DfsState :=
  let (answer, s) := env.ask s
  (answer || decide (env.maxCycles ≤ s.cycles.length), s)

/-- The cycle of a path that is back at the start. -/
def foundCycle (call : DfsCall) (score : Float) (path : List Edge) : FoundCycle where
  startToken := env.start
  edges := path
  hopCount := call.hops
  logWeight := score
  cumulativeFeeBps := call.cumFee
  score := score
  cycleRatio := call.productRatio

def record (call : DfsCall) (score : Float) (s : DfsState) : DfsState :=
  { s with
    seen := s.path :: s.seen
    cycles := s.cycles ++ [env.foundCycle call score s.path] }

/-- A cycle is recorded once the shared cap grants it. -/
def claim (call : DfsCall) (score : Float) (s : DfsState) : DfsState :=
  let (claimed, s) := env.ask s
  if claimed then env.record call score s else s

def closeCycle (call : DfsCall) (s : DfsState) : DfsState :=
  let pinTouch := call.pinTouched || s.path.any fun e => env.prep.edgeIsPin e.poolIndex
  let score := call.logW + hopPenalty call.hops
  if routeHopBudgetExceeded call.pathHopCalls then s
  else if !pinTouch && (decide (call.productRatio ≤ one18) ||
      decide (call.productRatio < minProfitableCycleRatio call.hops)) then s
  else if !pinTouch && decide (0.0 < score) then s
  else if s.path ∈ s.seen then s
  else
    -- half of the shared cap is kept for pinned paths
    let (past, s) := if env.prep.firstHopPools.isSome && !pinTouch then env.ask s else (false, s)
    if past then s else env.claim call score s

/-- The call for the token at the end of a hop. -/
def nextCall (call : DfsCall) (edge : Edge) (node : ℕ) (logW : Float) (ratio : U256)
    (pinTouched : Bool) : DfsCall where
  node := node
  pending := none
  pathHopCalls := addCalls call.pathHopCalls (estimateHopCalls edge.protocol)
  hops := call.hops + 1
  logW := logW
  productRatio := ratio
  cumFee := call.cumFee + clampFeeBps edge.feeBps
  pinTouched := pinTouched

/-- The call for a hub. -/
def enterCall (call : DfsCall) (ge : GraphEdge) : DfsCall :=
  { call with
    node := ge.targetNode
    pending := some (.ofEdge ge.edge)
    pinTouched := call.pinTouched || env.prep.edgeIsPin ge.edge.poolIndex }

section Calls

variable (visit : DfsCall → DfsState → Run DfsState) (call : DfsCall)

/-- Walk on along an edge that is on the path for the time being. -/
def descend (edge : Edge) (next : DfsCall) (s : DfsState) : Run DfsState :=
  (visit next (s.push edge)).map DfsState.pop

/-- The hop from the token of a hub to one of its legs. -/
def takeLeg (pending : PendingHubSwap) (pool : PoolMeta) (state : PoolState) (leg : ℕ) (s : DfsState) :
    Run DfsState :=
  match routingTokenAtLeg env.arena state pool leg with
  | none => some s
  | some tokenOut => do
      match ← resolveLazySwapEdge env.arena pending tokenOut leg with
      | none => some s
      | some (edge, edgeLogW, ratio) =>
          let hubPin := call.pinTouched || env.prep.edgeIsPin pending.poolIndex
          let next := nextCall call edge tokenOut (call.logW + edgeLogW)
            (mulRatioSaturating call.productRatio ratio) hubPin
          if !canStillFindProfitableCycle next.logW next.productRatio next.hops env.hopCap tokenOut
              env.prep hubPin then some s
          else if routeHopBudgetExceeded next.pathHopCalls then some s
          else descend visit edge next s

def exitLeg (pending : PendingHubSwap) (pool : PoolMeta) (state : PoolState) (s : DfsState) (leg : ℕ) :
    Run (LoopStep DfsState) :=
  if leg = pending.tokenInIdx then some (.continue s)
  else
    match env.shouldStop s with
    | (true, s) => some (.break s)
    | (false, s) => (env.takeLeg visit call pending pool state leg s).map .continue

def visitHub (pending : PendingHubSwap) (s : DfsState) : Run DfsState :=
  match s.markPool pending.poolIndex with
  | none => some s
  | some s =>
      match env.poolMetas pending.poolIndex, env.arena.poolState pending.poolIndex with
      | some pool, some state =>
          (tryForLoop (env.exitLeg visit call pending pool state)
            (hubExitLegs env.graph call.node pool state) s).map (·.unmarkPool pending.poolIndex)
      | _, _ => some (s.unmarkPool pending.poolIndex)

/-- A direct edge out of a token, with its pool marked during the descent. -/
def takeDirect (ge : GraphEdge) (s : DfsState) : Run DfsState :=
  if ge.ratio = 0 then some s
  else
    match s.markPool ge.edge.poolIndex with
    | none => some s
    | some s =>
        let pin := call.pinTouched || env.prep.edgeIsPin ge.edge.poolIndex
        let next := nextCall call ge.edge ge.targetNode (call.logW + ge.logWeight)
          (mulRatioSaturating call.productRatio ge.ratio) pin
        if !canStillFindProfitableCycle next.logW next.productRatio next.hops env.hopCap
            ge.edge.tokenOut env.prep pin then some (s.unmarkPool ge.edge.poolIndex)
        else if routeHopBudgetExceeded next.pathHopCalls then some (s.unmarkPool ge.edge.poolIndex)
        else (descend visit ge.edge next s).map (·.unmarkPool ge.edge.poolIndex)

def takeEdge (s : DfsState) (ge : GraphEdge) : Run (LoopStep DfsState) :=
  match env.shouldStop s with
  | (true, s) => some (.break s)
  | (false, s) =>
      match ge.phase with
      | .enterPool => (visit (env.enterCall call ge) s).map .continue
      | .direct => (env.takeDirect visit call ge s).map .continue
      | .exitPool => some (.continue s)

/-- Take every edge of a token that is marked meanwhile. -/
def expand (s : DfsState) : Run DfsState :=
  (tryForLoop (env.takeEdge visit call) (env.prep.edgesAt call.node)
    (s.setToken call.node true)).map (·.setToken call.node false)

def visitToken (s : DfsState) : Run DfsState :=
  if s.usedTokens.length ≤ call.node then some s
  else if 2 ≤ call.hops ∧ call.node = env.start then some (env.closeCycle call s)
  else if isMarked s.usedTokens call.node ∨ env.hopCap ≤ call.hops then some s
  else if !canStillFindProfitableCycle call.logW call.productRatio call.hops env.hopCap call.node
      env.prep call.pinTouched then some s
  else if env.prep.edgesAt call.node = [] then some s
  else env.expand visit call s

def dfsBody (s : DfsState) : Run DfsState :=
  match env.shouldStop s with
  | (true, s) => some s
  | (false, s) =>
      if env.graph.isVirtualNode call.node then
        match call.pending with
        | none => some s
        | some pending => env.visitHub visit call pending s
      else env.visitToken visit call s

end Calls

def dfs : ℕ → DfsCall → DfsState → Run DfsState
  | 0 => fun _ s => some s
  | fuel + 1 => env.dfsBody (dfs fuel)

/-- A token call needs two levels for every hop that is left, one for a hub and one for a token. -/
def dfsFuel : ℕ := 2 * env.hopCap + 3

/-- The opening call, at the start with nothing on the path. -/
def openCall : DfsCall where
  node := env.start
  pending := none
  pathHopCalls := 0
  hops := 0
  logW := 0.0
  productRatio := one18
  cumFee := 0
  pinTouched := false

/-- The opening edge asks before it marks its pool, and starts the sums with its own figures. -/
def openDirect (ge : GraphEdge) (s : DfsState) : Run DfsState :=
  if ge.ratio = 0 then some s
  else
    let pin := env.prep.edgeIsPin ge.edge.poolIndex
    let next := nextCall env.openCall ge.edge ge.targetNode ge.logWeight ge.ratio pin
    if !canStillFindProfitableCycle next.logW next.productRatio 1 env.hopCap ge.edge.tokenOut env.prep
        pin then some s
    else if routeHopBudgetExceeded next.pathHopCalls then some s
    else
      match s.markPool ge.edge.poolIndex with
      | none => some s
      | some s =>
          (descend (env.dfs env.dfsFuel) ge.edge next s).map (·.unmarkPool ge.edge.poolIndex)

def openEdge (pinOpen : Bool) (s : DfsState) (ge : GraphEdge) : Run (LoopStep DfsState) :=
  match env.shouldStop s with
  | (true, s) => some (.break s)
  | (false, s) =>
      if pinOpen && !env.prep.edgeIsPin ge.edge.poolIndex then some (.continue s)
      else
        match ge.phase with
        | .enterPool =>
            (env.dfs env.dfsFuel (env.enterCall env.openCall ge) s).map .continue
        | .direct => (env.openDirect ge s).map .continue
        | .exitPool => some (.continue s)

/-- The search over a prepared scratch. -/
def searchFromStart (s : DfsState) : Run DfsState :=
  if s.usedTokens.length ≤ env.start ∨ env.prep.edgesAt env.start = [] then some s
  else
    let pinOpen := (env.prep.edgesAt env.start).any fun ge => env.prep.edgeIsPin ge.edge.poolIndex
    (tryForLoop (env.openEdge pinOpen) (env.prep.edgesAt env.start)
      (s.setToken env.start true)).map (·.setToken env.start false)

end DfsEnv

/-- The scratch as a search from one start finds it. -/
def DfsEnv.prepared (env : DfsEnv) (scratch : DfsScratch) : DfsScratch :=
  scratch.prepare (max (max env.graph.poolSlots env.arena.inner.pools.length) 1) env.graph.tokenCount

/-- The cycles from one start token, and the scratch it leaves behind. -/
def collectCyclesDfsSingleStart (env : DfsEnv) (scratch : DfsScratch) :
    Run (List FoundCycle × DfsScratch) :=
  (env.searchFromStart { env.prepared scratch with cycles := [], seen := [], asked := 0 }).map fun s =>
    (s.cycles, s.toDfsScratch)

end PolygonArb

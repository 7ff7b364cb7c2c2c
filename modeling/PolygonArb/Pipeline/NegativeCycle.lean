import PolygonArb.Pipeline.Prune
import PolygonArb.Pipeline.RouteCalls

/-!
# The Bellman-Ford cycle search

`pipeline/weighted_graph.rs`, `pipeline/negative_cycle.rs` and `pipeline/bellman_ford.rs`.  Distances
and ratios are relaxed from one source for a few rounds; then, for every edge that could still be
relaxed, the predecessors are followed until a token comes twice, and the cycle behind that token is
kept if it pays.

The arrays of the scratch always have one length, so a token has one `BfSlot` with its entry of each.
`active` and `next_active` are cleared before they are read and are local here.
-/

namespace PolygonArb

open Word Loop

/-! ## The weighted graph -/

structure WeightedEdge where
  edge : Edge
  weight : Float
  ratio : U256
  deriving DecidableEq

/-- The outgoing edges of a token; one past the table has none. -/
def weightedEdgesAt (adj : List (List WeightedEdge)) (token : ℕ) : List WeightedEdge :=
  (adj[token]?).getD []

/-- The live direct edges between tokens. -/
def buildWeightedAdjacency (graph : RoutingGraph) : List (List WeightedEdge) :=
  (graph.adjacency.take graph.tokenCount).map fun edges =>
    (edges.filter fun ge =>
      ge.phase = .direct && isLiveGraphEdge ge && decide (ge.edge.tokenOut < graph.tokenCount)).map
      fun ge => ⟨ge.edge, ge.logWeight, ge.ratio⟩

/-! ## The scratch -/

/-- The entries of one token in `dist`, `dist_ratio`, `pred_node`, `pred_edge` and `in_next`. -/
structure BfSlot where
  dist : Float
  distRatio : U256
  predNode : Option TokenIndex
  predEdge : Option WeightedEdge
  inNext : Bool

def BfSlot.pristine : BfSlot := ⟨f64Infinity, one18, none, none, false⟩

/-- `visited_scratch` and `visited_gen`: a token was visited if it carries the present generation. -/
structure VisitMarks where
  visited : List ℕ
  generation : ℕ

/-- A new generation.  When the counter wraps around, the marks are cleared. -/
def VisitMarks.next (marks : VisitMarks) : VisitMarks :=
  let generation := (marks.generation + 1) % 2 ^ 32
  if generation = 0 then ⟨marks.visited.map fun _ => 0, 1⟩ else ⟨marks.visited, generation⟩

structure BfScratch where
  slots : List BfSlot
  marks : VisitMarks

/-- `Vec::resize`. -/
def resizeTo {α : Type} (xs : List α) (n : ℕ) (x : α) : List α :=
  xs.take n ++ List.replicate (n - xs.length) x

def BfScratch.prepare (scratch : BfScratch) (tokenCount : ℕ) : BfScratch :=
  if scratch.slots.length < tokenCount then
    { slots := resizeTo scratch.slots tokenCount .pristine
      marks := { scratch.marks with visited := resizeTo scratch.marks.visited tokenCount 0 } }
  else
    { scratch with
      slots := List.replicate tokenCount .pristine ++ scratch.slots.drop tokenCount }

/-- The slot of a token. -/
def slotAt (slots : List BfSlot) (token : ℕ) : BfSlot := (slots[token]?).getD .pristine

/-! ## Relaxation -/

def f64Epsilon : Float := Float.ofBits 0x3CB0000000000000

/-- `f64::max`. -/
def f64Max (a b : Float) : Float := if a < b then b else if a.isNaN then b else a

def bfEps (old : Float) : Float := f64Epsilon * f64Max old.abs 1.0 * 2.0

structure BfState where
  slots : List BfSlot
  touched : List ℕ
  nextActive : List ℕ

/-- Relax one edge out of a token whose distance and ratio were read before. -/
def relaxEdge (u : TokenIndex) (uDist : Float) (uRatio : U256) (s : BfState) (we : WeightedEdge) :
    BfState :=
  let v := we.edge.tokenOut
  if s.slots.length ≤ v ∨ we.ratio = 0 then s
  else
    let newDist := uDist + we.weight
    let old := slotAt s.slots v
    let newRatio := mulRatioSaturating uRatio we.ratio
    if newDist < old.dist - bfEps old.dist ∨ old.distRatio < newRatio then
      { slots := s.slots.set v ⟨newDist, newRatio, some u, some we, true⟩
        touched := if old.dist.isFinite then s.touched else s.touched ++ [v]
        nextActive := if old.inNext then s.nextActive else s.nextActive ++ [v] }
    else s

def relaxNode (adj : List (List WeightedEdge)) (s : BfState) (u : TokenIndex) : BfState :=
  let slot := slotAt s.slots u
  (weightedEdgesAt adj u).foldl (relaxEdge u slot.dist slot.distRatio) s

def clearInNext (slots : List BfSlot) (u : TokenIndex) : List BfSlot :=
  slots.set u { slotAt slots u with inNext := false }

def relaxRound (adj : List (List WeightedEdge)) (active : List ℕ) (s : BfState) : BfState :=
  active.foldl (relaxNode adj)
    { s with
      slots := active.foldl clearInNext s.slots
      nextActive := [] }

def relaxRounds (adj : List (List WeightedEdge)) : ℕ → List ℕ → BfState → BfState
  | 0, _, s => s
  | rounds + 1, active, s =>
      if active = [] then s
      else
        let s := relaxRound adj active s
        relaxRounds adj rounds s.nextActive s

/-- Distances from the source after `rounds` rounds. -/
def relaxFrom (adj : List (List WeightedEdge)) (rounds : ℕ) (source : TokenIndex)
    (slots : List BfSlot) : BfState :=
  relaxRounds adj rounds [source]
    { slots := slots.set source { slotAt slots source with dist := 0.0, distRatio := one18 }
      touched := [source]
      nextActive := [] }

/-! ## Extraction -/

/-- Position `i` repeats no pool and, but for the last, no token. -/
def simpleAt (edges : List Edge) (start : TokenIndex) (i : ℕ) (edge : Edge) : Bool :=
  (edges.take i).all (fun e => e.poolIndex ≠ edge.poolIndex) &&
    (decide (edges.length - 1 ≤ i) ||
      (decide (edge.tokenOut ≠ start) && (edges.take i).all fun e => e.tokenOut ≠ edge.tokenOut))

/-- The packed calls of a closed simple cycle. -/
def isSimpleCycle (edges : List Edge) : Option ℕ :=
  if edges.length < 2 then none
  else
    let start := (edges.head?.map Edge.tokenIn).getD 0
    if edges.getLast?.map Edge.tokenOut ≠ some start then none
    else if edges.zipIdx.all fun e => simpleAt edges start e.2 e.1 then
      some (estimatePackedRouteCalls edges)
    else none

/-- Follow the predecessors until a token comes twice.  The marks run out before the fuel does, see
`walkBack_of_le`. -/
def walkBack (slots : List BfSlot) (generation : ℕ) :
    ℕ → Option TokenIndex → List ℕ → Option TokenIndex × List ℕ
  | _, none, visited => (none, visited)
  | 0, some c, visited => (some c, visited)
  | fuel + 1, some c, visited =>
      if visited.length ≤ c ∨ visited[c]? = some generation then (some c, visited)
      else walkBack slots generation fuel (slotAt slots c).predNode (visited.set c generation)

/-- The predecessor edges from a token back to it, the last one first, and at most `hops` of them. -/
def traceBack (slots : List BfSlot) (start : TokenIndex) : ℕ → Option TokenIndex → List WeightedEdge
  | 0, _ => []
  | _, none => []
  | hops + 1, some t =>
      match (slotAt slots t).predEdge with
      | none => []
      | some we =>
          let trace := (slotAt slots t).predNode
          we :: if trace = some start then [] else traceBack slots start hops trace

/-- What the extraction changes: the marks, the cycles found, and how often the oracle was asked. -/
structure ExtractState where
  marks : VisitMarks
  foundKeys : List (List Edge)
  cycles : List FoundCycle
  asked : ℕ

/-- The oracle was asked once more. -/
def ExtractState.tick (x : ExtractState) : ExtractState := { x with asked := x.asked + 1 }

/-- The arguments of a search that stay the same. -/
structure BfEnv where
  adj : List (List WeightedEdge)
  maxHops : ℕ
  maxCycles : ℕ
  /-- The answers of `should_stop`. -/
  answers : ℕ → Bool

/-- The cycle of traced edges, which are in reverse order. -/
def tracedCycle (traced : List WeightedEdge) : FoundCycle :=
  let edges := (traced.map WeightedEdge.edge).reverse
  let logWeight := traced.foldl (fun sum we => sum + we.weight) 0.0 + hopPenalty edges.length
  { startToken := (edges.head?.map Edge.tokenIn).getD 0
    edges := edges
    hopCount := edges.length
    logWeight := logWeight
    cumulativeFeeBps :=
      traced.foldl (fun sum we => min (sum + clampFeeBps we.edge.feeBps) (2 ^ 32 - 1)) 0
    score := logWeight
    cycleRatio := foldRatio one18 (traced.map WeightedEdge.ratio) }

/-- Keep the cycle of traced edges if it pays and was not found before. -/
def keepCycle (traced : List WeightedEdge) (x : ExtractState) : ExtractState :=
  let cycle := tracedCycle traced
  match isSimpleCycle cycle.edges with
  | none => x
  | some routeCalls =>
      if !packedCallsFitExecutor routeCalls ∨ cycle.cycleRatio ≤ one18 ∨
          cycle.cycleRatio < minProfitableCycleRatio cycle.edges.length then x
      else if cycle.edges ∈ x.foundKeys then x
      else
        { x with
          foundKeys := cycle.edges :: x.foundKeys
          cycles := x.cycles ++ [cycle] }

namespace BfEnv

variable (env : BfEnv)

def hops : ℕ := min env.maxHops PolygonArb.hopCap

/-- `should_stop() || cycles.len() >= max_cycles`. -/
def shouldStop (x : ExtractState) : Bool × ExtractState :=
  (env.answers x.asked || decide (env.maxCycles ≤ x.cycles.length), x.tick)

section Extract

variable (slots : List BfSlot)

/-- The cycle behind a token, if its predecessors lead into one. -/
def extractCycle (u : TokenIndex) (x : ExtractState) : ExtractState :=
  let marks := x.marks.next
  let (curr, visited) :=
    walkBack slots marks.generation (marks.visited.length + 1) (some u) marks.visited
  let x := { x with marks := { marks with visited } }
  match curr with
  | none => x
  | some start => keepCycle (traceBack slots start env.hops (some start)) x

/-- The edge could still be relaxed. -/
def stillRelaxes (u : TokenIndex) (we : WeightedEdge) : Bool :=
  let v := slotAt slots we.edge.tokenOut
  !(decide (v.dist - bfEps v.dist ≤ (slotAt slots u).dist + we.weight) &&
    !decide (v.distRatio < mulRatioSaturating (slotAt slots u).distRatio we.ratio))

def extractEdge (u : TokenIndex) (x : ExtractState) (we : WeightedEdge) : LoopStep ExtractState :=
  match env.shouldStop x with
  | (true, x) => .break x
  | (false, x) =>
      if we.ratio = 0 ∨ slots.length ≤ we.edge.tokenOut then .continue x
      else if !stillRelaxes slots u we then .continue x
      else .continue (env.extractCycle slots u x)

def extractNode (x : ExtractState) (u : TokenIndex) : LoopStep ExtractState :=
  match env.shouldStop x with
  | (true, x) => .break x
  | (false, x) =>
      if !(slotAt slots u).dist.isFinite then .continue x
      else forLoop (env.extractEdge slots u) (weightedEdgesAt env.adj u) x

end Extract

end BfEnv

/-! ## The search -/

/-- The slots of the touched tokens as they were. -/
def resetSlots (slots : List BfSlot) (touched : List ℕ) : List BfSlot :=
  touched.foldl (fun slots token => slots.set token .pristine) slots

/-- The scratch of the thread with the cycles found so far. -/
structure BfRun extends ExtractState where
  slots : List BfSlot

def collectNegativeCyclesFromSource (env : BfEnv) (source : TokenIndex) (run : BfRun) : BfRun :=
  if run.slots.length ≤ source then run
  else
    let relaxed := relaxFrom env.adj env.hops source run.slots
    let extracted :=
      (forLoop (env.extractNode relaxed.slots) relaxed.touched run.toExtractState).state
    { extracted with slots := resetSlots relaxed.slots relaxed.touched }

def bellmanFordMaxSources : ℕ := 15

/-- Most edges first, then the lower index. -/
def prioritizeCycleStartTokensFromOutDegrees (outDegrees : List ℕ) : List TokenIndex :=
  ((outDegrees.zipIdx.filter fun d => 0 < d.1).mergeSort fun a b =>
    decide (b.1 < a.1) || decide (a.1 = b.1) && decide (a.2 ≤ b.2)).map Prod.snd

structure CycleSearchPass where
  maxHops : ℕ
  maxCycles : ℕ

section Passes

variable (adj : List (List WeightedEdge)) (answers : ℕ → Bool)

/-- The deadline has passed, or the pass has its cycles. -/
def passIsOver (pass : CycleSearchPass) (run : BfRun) : Bool × BfRun :=
  (answers run.asked || decide (pass.maxCycles ≤ run.cycles.length),
    { run with toExtractState := run.tick })

def searchSource (pass : CycleSearchPass) (run : BfRun) (source : TokenIndex) : LoopStep BfRun :=
  match passIsOver answers pass run with
  | (true, run) => .break run
  | (false, run) =>
      .continue (collectNegativeCyclesFromSource ⟨adj, pass.maxHops, pass.maxCycles, answers⟩ source run)

def searchPass (sources : List TokenIndex) (run : BfRun) (pass : CycleSearchPass) : LoopStep BfRun :=
  match passIsOver answers pass (forLoop (searchSource adj answers pass) sources run).state with
  | (true, run) => .break run
  | (false, run) => .continue run

/-- The cycles of all passes, and the scratch they leave behind. -/
def findCyclesBellmanFordMultiPassWithAdj (passes : List CycleSearchPass) (scratch : BfScratch) :
    List FoundCycle × BfScratch :=
  if passes = [] then ([], scratch)
  else
    let prepared := scratch.prepare adj.length
    let sources :=
      (prioritizeCycleStartTokensFromOutDegrees (adj.map List.length)).take bellmanFordMaxSources
    let run : BfRun := ⟨⟨prepared.marks, [], [], 0⟩, prepared.slots⟩
    let run := (forLoop (searchPass adj answers sources) passes run).state
    (run.cycles, ⟨run.slots, run.marks⟩)

end Passes

end PolygonArb

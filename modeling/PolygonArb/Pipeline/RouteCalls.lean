import PolygonArb.Core.Types

/-!
# Executor call budget

`pipeline/route_calls.rs`: how many packed executor calls a route needs.  A run of V2 hops shares one
prefund call, a short pure Balancer route is one batch call, and everything else is counted per hop.
-/

namespace PolygonArb

def maxExecutorCalls : ℕ := 12

def maxBalancerBatchHops : ℕ := 4

def estimateHopCalls : ProtocolType → ℕ
  | .uniswapV3 => 1
  | _ => 2

/-- The call count of the remaining edges; a V2 hop after a V2 hop needs no prefund. -/
def estimateRouteCallsFrom : Bool → List Edge → ℕ
  | _, [] => 0
  | previousV2, edge :: edges =>
      if edge.protocol = .uniswapV2 then
        1 + (if previousV2 then 0 else 1) + estimateRouteCallsFrom true edges
      else estimateHopCalls edge.protocol + estimateRouteCallsFrom false edges

def estimateRouteCalls (edges : List Edge) : ℕ := estimateRouteCallsFrom false edges

/-- Pure Balancer routes eligible for one vault `batchSwap`. -/
def balancerDirectBatchEligible (edges : List Edge) : Bool :=
  !edges.isEmpty && (edges.all fun e => e.protocol = .balancerV2)
    && edges.length ≤ maxBalancerBatchHops

/-- Pure DODO routes, for the all-in gas seed. -/
def dodoFlashBatchEligible (edges : List Edge) : Bool :=
  !edges.isEmpty && (edges.all fun e => e.protocol = .dodo) && edges.length ≤ maxBalancerBatchHops

def estimatePackedRouteCalls (edges : List Edge) : ℕ :=
  if balancerDirectBatchEligible edges then 1 else estimateRouteCalls edges

def packedCallsFitExecutor (packedCalls : ℕ) : Bool := packedCalls ≤ maxExecutorCalls

def routeFitsExecutor (edges : List Edge) : Bool :=
  packedCallsFitExecutor (estimatePackedRouteCalls edges)

/-- The running sum of per-hop estimates that the search budgets with. -/
def hopCallSum (edges : List Edge) : ℕ := (edges.map fun e => estimateHopCalls e.protocol).sum

lemma estimateRouteCallsFrom_le (edges : List Edge) :
    ∀ previousV2, estimateRouteCallsFrom previousV2 edges ≤ hopCallSum edges := by
  induction edges with
  | nil => intro _; exact le_rfl
  | cons edge edges ih =>
      intro previousV2
      rw [estimateRouteCallsFrom, hopCallSum, List.map_cons, List.sum_cons, ← hopCallSum]
      split
      · rename_i hv2
        have hcalls : estimateHopCalls edge.protocol = 2 := by rw [hv2]; rfl
        have hrest := ih true
        split <;> omega
      · have hrest := ih false
        omega

/-- The packed estimate never exceeds the per-hop sum. -/
theorem estimatePackedRouteCalls_le (edges : List Edge) (h : edges ≠ []) :
    estimatePackedRouteCalls edges ≤ hopCallSum edges := by
  rw [estimatePackedRouteCalls]
  split
  · rcases List.exists_cons_of_ne_nil h with ⟨edge, rest, rfl⟩
    rw [hopCallSum, List.map_cons, List.sum_cons]
    have hone : 1 ≤ estimateHopCalls edge.protocol := by cases edge.protocol <;> decide
    omega
  · exact estimateRouteCallsFrom_le edges false

/-- A route within the search budget fits the executor. -/
theorem routeFitsExecutor_of_hopCallSum {edges : List Edge} (hne : edges ≠ [])
    (h : hopCallSum edges ≤ maxExecutorCalls) : routeFitsExecutor edges = true := by
  rw [routeFitsExecutor, packedCallsFitExecutor, decide_eq_true_iff]
  exact (estimatePackedRouteCalls_le edges hne).trans h

end PolygonArb

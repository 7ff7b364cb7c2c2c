import PolygonArb.Lib.CompareSort
import PolygonArb.Pipeline.CycleSelect

/-!
# The two orders of cycles

`compareCycleScore` and `compareCycleExecution` of `pipeline/types.rs` compare several things in turn, the
edges of the two routes last.  Both are total preorders: whatever they cannot tell apart is tied, and ties
are transitive.  Routes of the same length tie when their edges have the same pools, tokens and positions.
-/

namespace PolygonArb

open CompareSort Std

instance transCmp_compareEdges : TransCmp compareEdges :=
  inferInstanceAs <| TransCmp <| compareLex
    (compareLex (compareLex (compareOn Edge.poolIndex) (compareOn Edge.tokenIn)) (compareOn Edge.tokenOut))
    (compareLex (compareOn Edge.tokenInIdx) (compareOn Edge.tokenOutIdx))

/-- The first difference of two routes, or their lengths. -/
lemma firstDifference_eq (a b : List Edge) :
    (((a.zip b).findSome? fun (left, right) =>
        let order := compareEdges left right
        if order = .eq then none else some order).getD (compare a.length b.length)) =
      List.compareLex compareEdges a b := by
  induction a generalizing b with
  | nil => cases b <;> simp [List.compareLex_nil_nil, List.compareLex_nil_cons, Nat.compare_eq_ite_lt]
  | cons x a ih =>
      cases b with
      | nil => simp [List.compareLex_cons_nil, Nat.compare_eq_ite_lt]
      | cons y b =>
          rw [List.compareLex_cons_cons, ← ih b]
          cases hxy : compareEdges x y with
          | lt => simp [hxy]
          | eq => simp [hxy, Nat.compare_eq_ite_lt]
          | gt => simp [hxy]

lemma cycleTieBreak_eq (a b : FoundCycle) :
    cycleTieBreak a b = compareLex (compareLex (compareOn FoundCycle.edgeHops)
      (compareOn FoundCycle.startToken)) (fun a b => List.compareLex compareEdges a.edges b.edges) a b := by
  rw [cycleTieBreak, firstDifference_eq]
  rfl

instance transCmp_cycleTieBreak : TransCmp cycleTieBreak := by
  have := transCmp_comap (List.compareLex compareEdges) FoundCycle.edges
  rw [funext fun a => funext fun b => cycleTieBreak_eq a b]
  infer_instance

instance transCmp_ratioDescending :
    TransCmp fun a b : FoundCycle => compare b.cycleRatio.toNat a.cycleRatio.toNat :=
  @TransCmp.opposite _ (compareOn fun c : FoundCycle => c.cycleRatio.toNat) inferInstance

instance transCmp_profitableFirst :
    TransCmp fun a b : FoundCycle => compare b.profitable a.profitable :=
  @TransCmp.opposite _ (compareOn FoundCycle.profitable) inferInstance

/-- By ratio, score and route. -/
instance transCmp_compareCycleScore : TransCmp compareCycleScore :=
  inferInstanceAs <| TransCmp <| compareLex
    (compareLex (fun a b : FoundCycle => compare b.cycleRatio.toNat a.cycleRatio.toNat)
      (compareOn fun c : FoundCycle => totalKey c.score))
    cycleTieBreak

/-- By profitability, score, ratio and route. -/
instance transCmp_compareCycleExecution : TransCmp compareCycleExecution :=
  inferInstanceAs <| TransCmp <| compareLex
    (compareLex
      (compareLex (fun a b : FoundCycle => compare b.profitable a.profitable)
        (compareOn fun c : FoundCycle => totalKey c.score))
      (fun a b : FoundCycle => compare b.cycleRatio.toNat a.cycleRatio.toNat))
    cycleTieBreak

lemma cyclePrefersCandidate_self (c : FoundCycle) : cyclePrefersCandidate c c = false := by
  have hself : compareCycleScore c c = .eq := ReflCmp.compare_self
  simp [cyclePrefersCandidate, hself]

lemma cyclePrefersCandidate_trans {a b c : FoundCycle} (hab : cyclePrefersCandidate a b = true)
    (hbc : cyclePrefersCandidate b c = true) : cyclePrefersCandidate a c = true := by
  simp only [cyclePrefersCandidate, decide_eq_true_eq] at hab hbc ⊢
  exact TransCmp.lt_trans hab hbc

end PolygonArb

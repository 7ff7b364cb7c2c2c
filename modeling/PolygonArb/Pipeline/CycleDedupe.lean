import PolygonArb.Lib.CollisionTable
import PolygonArb.Pipeline.CycleOrder

/-!
# The best cycle of every route

`dedupe_cycles_by_key` looks routes up by a 64-bit hash and keeps colliding routes apart.  Whatever the hash,
the cycles it keeps are those of `dedupeCyclesByEdges`, which compares the edge lists alone
(`exists_dedupeCyclesByEdges_eq`): one cycle for every edge list, none of the others preferred to it, sorted by
score.  The order of the input and the order in which the tables are drained only decide between tied
cycles (`dedupeCyclesByKey_keepsBest`).
-/

namespace PolygonArb

open CompareSort Selection

/-- The best cycle for every edge list, by a hash of the list. -/
def dedupeCyclesByKey (order : DrainOrder) (keyFor : List Edge → BitVec 64) (cycles : List FoundCycle) :
    List FoundCycle :=
  (order.drain (cycles.foldl (CollisionTable.insert FoundCycle.edges keyFor cyclePrefersCandidate)
    .empty).values).mergeSort fun a b => (compareCycleScore a b).isLE

/-- The values in another order, for one list of values. -/
def DrainOrder.reorder (order : DrainOrder) (kept values : List FoundCycle) (h : values.Perm kept) :
    DrainOrder where
  drain := fun cycles => if cycles = kept then order.drain values else cycles
  perm := by
    intro cycles
    split_ifs with heq
    · exact (order.perm values).trans (heq ▸ h)
    · exact .refl _

lemma DrainOrder.reorder_drain (order : DrainOrder) {kept values : List FoundCycle}
    (h : values.Perm kept) : (order.reorder kept values h).drain kept = order.drain values :=
  if_pos rfl

/-- The hash only decides the order in which the cycles are drained. -/
lemma exists_dedupeCyclesByEdges_eq (order : DrainOrder) (keyFor : List Edge → BitVec 64)
    (cycles : List FoundCycle) :
    ∃ order', dedupeCyclesByKey order keyFor cycles = dedupeCyclesByEdges order' cycles := by
  have hperm : (cycles.foldl (CollisionTable.insert FoundCycle.edges keyFor cyclePrefersCandidate)
      .empty).values.Perm (cycles.foldl (Selection.keepPreferred FoundCycle.edges cyclePrefersCandidate) []) :=
    (CollisionTable.values_foldl_insert cycles).2
  refine ⟨order.reorder _ _ hperm, ?_⟩
  rw [dedupeCyclesByKey, dedupeCyclesByEdges, order.reorder_drain hperm]

/-- One cycle of the input for every edge list, none with the same edges preferred to it, sorted. -/
structure KeepsBest (cycles out : List FoundCycle) : Prop where
  mem : ∀ c ∈ out, c ∈ cycles
  nodup : (out.map FoundCycle.edges).Nodup
  edges : ∀ e, e ∈ out.map FoundCycle.edges ↔ e ∈ cycles.map FoundCycle.edges
  best : ∀ c ∈ out, ∀ c' ∈ cycles, c'.edges = c.edges → cyclePrefersCandidate c' c = false
  sorted : SortedBy compareCycleScore out

/-- The same routes, with tied cycles for each of them, and tied cycles at every place. -/
structure SameUpToTies (out out' : List FoundCycle) : Prop where
  routes : (out.map FoundCycle.edges).Perm (out'.map FoundCycle.edges)
  cycles : ∀ c ∈ out, ∀ c' ∈ out', c.edges = c'.edges → Tied compareCycleScore c c'
  places : List.Forall₂ (Tied compareCycleScore) out out'

lemma keepsBest_dedupeCyclesByEdges (order : DrainOrder) (cycles : List FoundCycle) :
    KeepsBest cycles (dedupeCyclesByEdges order cycles) where
  mem := fun c hc => mem_dedupeCyclesByEdges hc
  nodup := nodup_dedupeCyclesByEdges cycles
  edges := by
    intro e
    rw [List.mem_map, List.mem_map]
    constructor
    · rintro ⟨c, hc, rfl⟩
      exact ⟨c, mem_dedupeCyclesByEdges hc, rfl⟩
    · rintro ⟨c, hc, rfl⟩
      exact exists_mem_dedupeCyclesByEdges hc
  best := by
    intro c hc c' hc' hedges
    rw [dedupeCyclesByEdges, List.mem_mergeSort, (order.perm _).mem_iff] at hc
    exact not_prefers_foldl_keepPreferred cyclePrefersCandidate_self
      (fun _ _ _ => cyclePrefersCandidate_trans) cycles c' hc' c hc hedges.symm
  sorted := sortedBy_mergeSort _

/-- Neither of two cycles is preferred to the other. -/
lemma tied_of_not_prefers {a b : FoundCycle} (hab : cyclePrefersCandidate a b = false)
    (hba : cyclePrefersCandidate b a = false) : Tied compareCycleScore a b := by
  simp only [cyclePrefersCandidate, decide_eq_false_iff_not] at hab hba
  rw [Tied]
  cases h : compareCycleScore a b with
  | lt => exact absurd h hab
  | eq => rfl
  | gt => exact absurd (Std.OrientedCmp.lt_of_gt h) hba

/-- The best cycles of the same routes are the same up to ties. -/
lemma KeepsBest.sameUpToTies {cycles cycles' out out' : List FoundCycle} (h : KeepsBest cycles out)
    (h' : KeepsBest cycles' out') (hperm : cycles.Perm cycles') : SameUpToTies out out' := by
  have hroutes : (out.map FoundCycle.edges).Perm (out'.map FoundCycle.edges) := by
    rw [List.perm_ext_iff_of_nodup h.nodup h'.nodup]
    intro e
    rw [h.edges e, h'.edges e]
    exact (hperm.map _).mem_iff
  have hties : ∀ c ∈ out, ∀ c' ∈ out', c.edges = c'.edges → Tied compareCycleScore c c' := by
    intro c hc c' hc' hedges
    exact tied_of_not_prefers (h'.best c' hc' c (hperm.subset (h.mem c hc)) hedges)
      (h.best c hc c' (hperm.symm.subset (h'.mem c' hc')) hedges.symm)
  exact ⟨hroutes, hties, forall₂_tied_of_sorted h.sorted h'.sorted hroutes hties⟩

lemma keepsBest_dedupeCyclesByKey (order : DrainOrder) (keyFor : List Edge → BitVec 64)
    (cycles : List FoundCycle) : KeepsBest cycles (dedupeCyclesByKey order keyFor cycles) := by
  rcases exists_dedupeCyclesByEdges_eq order keyFor cycles with ⟨order', heq⟩
  rw [heq]
  exact keepsBest_dedupeCyclesByEdges order' cycles

/-- Whatever the hash, the best cycle of every route is kept, and up to ties neither the order of the
input nor the hash matters. -/
theorem dedupeCyclesByKey_keepsBest (order : DrainOrder) (keyFor : List Edge → BitVec 64)
    (cycles : List FoundCycle) :
    KeepsBest cycles (dedupeCyclesByKey order keyFor cycles) ∧
      ∀ order' keyFor' cycles', cycles.Perm cycles' →
        SameUpToTies (dedupeCyclesByKey order keyFor cycles)
          (dedupeCyclesByKey order' keyFor' cycles') := by
  refine ⟨keepsBest_dedupeCyclesByKey order keyFor cycles, ?_⟩
  intro order' keyFor' cycles' hperm
  exact (keepsBest_dedupeCyclesByKey order keyFor cycles).sameUpToTies
    (keepsBest_dedupeCyclesByKey order' keyFor' cycles') hperm

end PolygonArb

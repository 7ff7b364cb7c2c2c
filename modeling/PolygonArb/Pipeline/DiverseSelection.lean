import PolygonArb.Lib.FairRounds
import PolygonArb.Pipeline.CycleDedupe

/-!
# Protocol-diverse selection

`apply_protocol_diverse_selection` takes the best cycles of every primary protocol in turn.  It returns as
many cycles as it may, no two with the same edges; of every protocol a prefix of the cycles in the order of
`compareCycleExecution`; and a protocol of which a cycle is left out has at most one cycle less in the selection
than any other (`applyProtocolDiverseSelection_diverse`).
-/

namespace PolygonArb

open CompareSort Selection

variable {order : DrainOrder} {cycles : List FoundCycle} {maxCycles : ℕ}

lemma toU8_injective : Function.Injective ProtocolType.toU8 := by
  intro p p' h
  cases p <;> cases p' <;> first | rfl | exact absurd h (by decide)

lemma fetchSlot_eq_iff (c : FoundCycle) (p : ProtocolType) :
    c.fetchSlot = p.toU8 ↔ primaryProtocol c.edges = p :=
  toU8_injective.eq_iff

lemma fetchSlot_of_mem_protocolGroup {s : ℕ} {c : FoundCycle} (h : c ∈ protocolGroup cycles s) :
    c.fetchSlot = s := by
  rw [protocolGroup, List.mem_mergeSort, List.mem_filter, decide_eq_true_eq] at h
  exact h.2

/-- The groups that have cycles. -/
def activeGroups (cycles : List FoundCycle) : List (List FoundCycle) :=
  ((List.range 8).map (protocolGroup cycles)).filter fun g => !g.isEmpty

/-- Before the first round nothing is taken, and every group waits. -/
lemma fair_activeGroups (cycles : List FoundCycle) :
    Fair FoundCycle.fetchSlot (protocolGroup cycles) 0 [] (activeGroups cycles) [] where
  isPrefix := fun s => List.nil_prefix
  bounded := by simp [taken]
  visited := by simp
  waiting := by
    intro l hl c hc
    rcases List.mem_map.mp (List.mem_filter.mp hl).1 with ⟨s, -, rfl⟩
    rw [fetchSlot_of_mem_protocolGroup hc]
    exact ⟨rfl, rfl⟩
  apart := by
    rw [List.nil_append, activeGroups]
    refine List.Pairwise.filter _ (List.pairwise_map.mpr ?_)
    refine List.Pairwise.imp ?_ (List.nodup_range (n := 8))
    intro s s' hne c hc c' hc' heq
    rw [fetchSlot_of_mem_protocolGroup hc, fetchSlot_of_mem_protocolGroup hc'] at heq
    exact hne heq

/-- The cycles selected are fair, and nothing else is left over than what the groups still have. -/
lemma exists_fair (cycles : List FoundCycle) (cap : ℕ) :
    ∃ r done todo, Fair FoundCycle.fetchSlot (protocolGroup cycles) r done todo
        (roundRobin cap cap (activeGroups cycles) []) ∧
      (roundRobin cap cap (activeGroups cycles) [] ++ (done ++ todo).flatten).Perm cycles := by
  rcases roundRobin_fair (fun s c hc => fetchSlot_of_mem_protocolGroup hc) cap cap
    (fair_activeGroups cycles) with ⟨r, done, todo, hfair, hperm⟩
  exact ⟨r, done, todo, hfair, hperm.trans (protocolGroups_perm cycles)⟩

/-- The cycles of a protocol. -/
def ofProtocol (cycles : List FoundCycle) (p : ProtocolType) : List FoundCycle :=
  cycles.filter fun c => primaryProtocol c.edges = p

lemma taken_eq_ofProtocol (cycles : List FoundCycle) (p : ProtocolType) :
    taken FoundCycle.fetchSlot cycles p.toU8 = ofProtocol cycles p := by
  rw [taken, ofProtocol]
  refine List.filter_congr fun c _ => ?_
  rw [decide_eq_decide]
  exact fetchSlot_eq_iff c p

/-- The cycles of a protocol come in the order in which its group has them. -/
lemma ofProtocol_selected_prefix (cycles : List FoundCycle) (cap : ℕ) (p : ProtocolType) :
    ofProtocol ((roundRobin cap cap (activeGroups cycles) []).mergeSort fun a b =>
        (compareCycleExecution a b).isLE) p <+: protocolGroup cycles p.toU8 := by
  rcases exists_fair cycles cap with ⟨r, done, todo, hfair, -⟩
  have hprefix := hfair.isPrefix p.toU8
  rw [taken_eq_ofProtocol, ofProtocol] at hprefix
  have hsorted : SortedBy compareCycleExecution (protocolGroup cycles p.toU8) := sortedBy_mergeSort _
  rw [ofProtocol, filter_mergeSort _ (hsorted.sublist hprefix.sublist)]
  exact hprefix

lemma protocolGroup_perm (cycles : List FoundCycle) (p : ProtocolType) :
    (protocolGroup cycles p.toU8).Perm (ofProtocol cycles p) := by
  rw [← taken_eq_ofProtocol]
  exact List.mergeSort_perm _ _

/-- A selection of the best cycles of every protocol in turn. -/
structure Diverse (cycles : List FoundCycle) (maxCycles : ℕ) (best out : List FoundCycle) : Prop where
  mem : ∀ c ∈ out, c ∈ cycles
  nodup : (out.map FoundCycle.edges).Nodup
  length : out.length = min maxCycles (cycles.map FoundCycle.edges).dedup.length
  /-- The best cycles of a protocol, sorted, begin with the selected ones. -/
  bestFirst : ∀ p, ∃ sorted, sorted.Perm (ofProtocol best p) ∧
    SortedBy compareCycleExecution sorted ∧ ofProtocol out p <+: sorted
  fair : ∀ c ∈ cycles, c.edges ∉ out.map FoundCycle.edges → ∀ p,
    (ofProtocol out p).length ≤ (ofProtocol out (primaryProtocol c.edges)).length + 1

/-- As many cycles as there are edge lists are kept. -/
lemma length_dedupeCyclesByEdges (cycles : List FoundCycle) :
    (dedupeCyclesByEdges order cycles).length = (cycles.map FoundCycle.edges).dedup.length := by
  have hbest := keepsBest_dedupeCyclesByEdges order cycles
  have hperm : ((dedupeCyclesByEdges order cycles).map FoundCycle.edges).Perm
      (cycles.map FoundCycle.edges).dedup := by
    rw [List.perm_ext_iff_of_nodup hbest.nodup (List.nodup_dedup _)]
    intro e
    rw [List.mem_dedup]
    exact hbest.edges e
  rw [← hperm.length_eq, List.length_map]

/-- What is left out of the rounds has at most one cycle less of its protocol than any other. -/
lemma selected_fair {best : List FoundCycle} (cap : ℕ) {c : FoundCycle} (hc : c ∈ best)
    (hout : c ∉ roundRobin cap cap (activeGroups best) []) (p : ProtocolType) :
    (ofProtocol (roundRobin cap cap (activeGroups best) []) p).length ≤
      (ofProtocol (roundRobin cap cap (activeGroups best) []) (primaryProtocol c.edges)).length + 1 := by
  rcases exists_fair best cap with ⟨r, done, todo, hfair, hperm⟩
  have hleft : c ∈ (done ++ todo).flatten :=
    (List.mem_append.mp (hperm.symm.subset hc)).resolve_left hout
  have hle := hfair.length_taken_le hleft p.toU8
  rw [FoundCycle.fetchSlot, taken_eq_ofProtocol, taken_eq_ofProtocol] at hle
  exact hle

/-- Nothing, or what the rounds select, sorted. -/
lemma applyProtocolDiverseSelection_cases (order : DrainOrder) (cycles : List FoundCycle)
    (maxCycles : ℕ) :
    applyProtocolDiverseSelection order cycles maxCycles = [] ∨
      ∃ cap, applyProtocolDiverseSelection order cycles maxCycles =
        (roundRobin cap cap (activeGroups (dedupeCyclesByEdges order cycles)) []).mergeSort
          fun a b => (compareCycleExecution a b).isLE := by
  rw [applyProtocolDiverseSelection]
  dsimp only
  split_ifs
  · exact .inl rfl
  · exact .inr ⟨_, rfl⟩

lemma length_ofProtocol_mergeSort (selected : List FoundCycle) (p : ProtocolType) :
    (ofProtocol (selected.mergeSort fun a b => (compareCycleExecution a b).isLE) p).length =
      (ofProtocol selected p).length :=
  ((List.mergeSort_perm selected _).filter _).length_eq

/-- The selection of the deduplicated cycles is diverse. -/
theorem applyProtocolDiverseSelection_diverse (order : DrainOrder) (cycles : List FoundCycle)
    (maxCycles : ℕ) :
    Diverse cycles maxCycles (dedupeCyclesByEdges order cycles)
      (applyProtocolDiverseSelection order cycles maxCycles) := by
  have hbest := keepsBest_dedupeCyclesByEdges order cycles
  have hsub : (applyProtocolDiverseSelection order cycles maxCycles).Subperm
      (dedupeCyclesByEdges order cycles) := applyProtocolDiverseSelection_subperm _ _
  have hlength : (applyProtocolDiverseSelection order cycles maxCycles).length =
      min maxCycles (dedupeCyclesByEdges order cycles).length :=
    length_applyProtocolDiverseSelection _ _
  rw [length_dedupeCyclesByEdges] at hlength
  refine ⟨fun c hc => hbest.mem c (hsub.subset hc), nodup_map_of_subperm hsub hbest.nodup, hlength, ?_, ?_⟩
  · intro p
    refine ⟨protocolGroup (dedupeCyclesByEdges order cycles) p.toU8, protocolGroup_perm _ p,
      sortedBy_mergeSort _, ?_⟩
    rcases applyProtocolDiverseSelection_cases order cycles maxCycles with hnil | ⟨cap, hout⟩
    · rw [hnil]
      exact List.nil_prefix
    · rw [hout]
      exact ofProtocol_selected_prefix _ cap p
  · intro c hc hleft p
    have hkept : ∃ c' ∈ dedupeCyclesByEdges order cycles, c'.edges = c.edges :=
      exists_mem_dedupeCyclesByEdges hc
    rcases hkept with ⟨c', hc', hedges⟩
    rw [← hedges] at hleft ⊢
    rcases applyProtocolDiverseSelection_cases order cycles maxCycles with hnil | ⟨cap, hout⟩
    · rw [hnil]
      exact Nat.zero_le _
    · rw [hout] at hleft ⊢
      rw [length_ofProtocol_mergeSort, length_ofProtocol_mergeSort]
      refine selected_fair cap hc' (fun hin => hleft ?_) p
      exact List.mem_map_of_mem (List.mem_mergeSort.mpr hin)

end PolygonArb

import PolygonArb.Lib.TopRanked
import PolygonArb.Pipeline.GraphInvariant

/-!
# Which parallel edges stay alive

Thinning sorts the live direct edges of a token, walks over the runs of one group and keeps the first
edges of each.  Here it is said without the sort: a live edge stays exactly when fewer than
`maxPerPair` edges of its group come before it, by ratio and then by pool
(`mem_thinParallelEdges`), and the others are left as stubs.

* `Outranks` — the order within a group, strict because a pool has one edge in a row.
* `RanksBefore` — the order of the sorted list, which puts the groups after one another.
* `keepBest_spec` — the walk, with what was passed so far as a list.
-/

namespace PolygonArb

open ReverseIndex TopRanked Word

/-- Live and direct: what thinning chooses from. -/
def competes (ge : GraphEdge) : Bool := isLiveGraphEdge ge && decide (ge.phase = .direct)

/-- The first edge is kept before the second: a better ratio, or the same one and a lower pool. -/
def Outranks (a b : GraphEdge) : Prop :=
  edgeGroup a = edgeGroup b ∧
    (b.ratio < a.ratio ∨ b.ratio = a.ratio ∧ a.edge.poolIndex < b.edge.poolIndex)

instance : DecidableRel Outranks := fun a b => by
  unfold Outranks
  infer_instance

instance : IsStrictOrder GraphEdge Outranks where
  irrefl a h := by
    rcases h.2 with hlt | ⟨-, hlt⟩
    · exact BitVec.lt_irrefl _ hlt
    · exact lt_irrefl _ hlt
  trans a b c hab hbc := by
    refine ⟨hab.1.trans hbc.1, ?_⟩
    rcases hab.2 with hab | ⟨heq, hab⟩ <;> rcases hbc.2 with hbc | ⟨heq', hbc⟩
    · exact .inl (BitVec.lt_trans hbc hab)
    · exact .inl (heq' ▸ hab)
    · exact .inl (heq ▸ hbc)
    · exact .inr ⟨heq'.trans heq, hab.trans hbc⟩

/-! ## The sorted list -/

section Sorted

variable {a b c : GraphEdge}

lemma edgeRankLe_iff : edgeRankLe a b = true ↔
    a.edge.tokenOut < b.edge.tokenOut ∨ a.edge.tokenOut = b.edge.tokenOut ∧
      (a.edge.protocol.toU8 < b.edge.protocol.toU8 ∨
        a.edge.protocol.toU8 = b.edge.protocol.toU8 ∧
          (b.ratio < a.ratio ∨ b.ratio = a.ratio ∧ a.edge.poolIndex ≤ b.edge.poolIndex)) := by
  simp only [edgeRankLe, Bool.or_eq_true, Bool.and_eq_true, decide_eq_true_eq]

/-- The order of the sort is a lexicographic one. -/
def rankKey (ge : GraphEdge) : ℕ ×ₗ ℕ ×ₗ ℕᵒᵈ ×ₗ ℕ :=
  toLex (ge.edge.tokenOut, toLex (ge.edge.protocol.toU8,
    toLex (OrderDual.toDual ge.ratio.toNat, ge.edge.poolIndex)))

lemma edgeRankLe_iff_rankKey : edgeRankLe a b = true ↔ rankKey a ≤ rankKey b := by
  have hratio : b.ratio = a.ratio ↔ a.ratio.toNat = b.ratio.toNat := by
    rw [BitVec.toNat_inj, eq_comm]
  rw [edgeRankLe_iff, hratio, BitVec.lt_def]
  simp only [rankKey, Prod.Lex.toLex_le_toLex, OrderDual.toDual_lt_toDual, OrderDual.toDual_inj]

lemma edgeRankLe_trans (a b c : GraphEdge) (hab : edgeRankLe a b = true)
    (hbc : edgeRankLe b c = true) : edgeRankLe a c = true := by
  rw [edgeRankLe_iff_rankKey] at hab hbc ⊢
  exact hab.trans hbc

lemma edgeRankLe_total (a b : GraphEdge) : (edgeRankLe a b || edgeRankLe b a) = true := by
  rw [Bool.or_eq_true, edgeRankLe_iff_rankKey, edgeRankLe_iff_rankKey]
  exact le_total _ _

/-- Within a group the sort is by rank. -/
lemma outranks_of_edgeRankLe (h : edgeRankLe a b = true) (hpool : a.edge.poolIndex ≠ b.edge.poolIndex)
    (hgroup : edgeGroup a = edgeGroup b) : Outranks a b := by
  refine ⟨hgroup, ?_⟩
  rw [edgeGroup, edgeGroup, Prod.mk.injEq] at hgroup
  rcases edgeRankLe_iff.mp h with hlt | ⟨-, hlt | ⟨-, hrank⟩⟩
  · exact absurd hgroup.1 hlt.ne
  · exact absurd hgroup.2 hlt.ne
  · exact hrank.imp id (And.imp id fun hle => lt_of_le_of_ne hle hpool)

lemma not_outranks_of_edgeRankLe (h : edgeRankLe a b = true) : ¬ Outranks b a := by
  rintro ⟨hgroup, hrank⟩
  rw [edgeGroup, edgeGroup, Prod.mk.injEq] at hgroup
  rcases edgeRankLe_iff.mp h with hlt | ⟨-, hlt | ⟨-, hle⟩⟩
  · exact absurd hgroup.1.symm hlt.ne
  · exact absurd hgroup.2.symm hlt.ne
  · rcases hle with hlt | ⟨heq, hle⟩ <;> rcases hrank with hlt' | ⟨heq', hlt'⟩
    · exact BitVec.lt_irrefl _ (BitVec.lt_trans hlt hlt')
    · exact BitVec.lt_irrefl _ (heq' ▸ hlt)
    · exact BitVec.lt_irrefl _ (heq ▸ hlt')
    · exact absurd hlt' (not_lt.mpr hle)

/-- Groups come one after the other. -/
lemma edgeGroup_between (hab : edgeRankLe a b = true) (hbc : edgeRankLe b c = true)
    (hgroup : edgeGroup a = edgeGroup c) : edgeGroup b = edgeGroup c := by
  rw [edgeGroup, edgeGroup, Prod.mk.injEq] at hgroup ⊢
  have hle : ∀ {x y}, edgeRankLe x y = true → x.edge.tokenOut ≤ y.edge.tokenOut := by
    intro x y h
    rcases edgeRankLe_iff.mp h with hlt | ⟨heq, -⟩
    · exact hlt.le
    · exact heq.le
  have hout : b.edge.tokenOut = c.edge.tokenOut := le_antisymm (hle hbc) (hgroup.1 ▸ hle hab)
  have hle' : ∀ {x y}, edgeRankLe x y = true → x.edge.tokenOut = y.edge.tokenOut →
      x.edge.protocol.toU8 ≤ y.edge.protocol.toU8 := by
    intro x y h heq
    rcases edgeRankLe_iff.mp h with hlt | ⟨-, hlt | ⟨heq', -⟩⟩
    · exact absurd heq hlt.ne
    · exact hlt.le
    · exact heq'.le
  exact ⟨hout, le_antisymm (hle' hbc hout) (hgroup.2 ▸ hle' hab (hgroup.1.trans hout.symm))⟩

/-- The order of the sorted list, where no two edges are of one pool. -/
def RanksBefore (a b : GraphEdge) : Prop :=
  edgeRankLe a b = true ∧ a.edge.poolIndex ≠ b.edge.poolIndex

lemma pairwise_sorted {live : List GraphEdge} (h : (live.map edgePool).Nodup) :
    (live.mergeSort edgeRankLe).Pairwise RanksBefore := by
  have hpools : ((live.mergeSort edgeRankLe).map edgePool).Nodup :=
    ((List.mergeSort_perm live edgeRankLe).map edgePool).nodup_iff.mpr h
  have hranks : (live.mergeSort edgeRankLe).Pairwise fun a b => edgeRankLe a b = true :=
    List.pairwise_mergeSort edgeRankLe_trans edgeRankLe_total live
  exact hranks.and (List.pairwise_map.mp hpools)

/-- In the sorted list the edges before one of their group outrank it, and none after it does. -/
lemma rank_sorted {passed edges : List GraphEdge} {ge : GraphEdge}
    (h : (passed ++ ge :: edges).Pairwise RanksBefore) :
    rank Outranks (passed ++ ge :: edges) ge = passed.countP fun x => edgeGroup x = edgeGroup ge := by
  rcases List.pairwise_append.mp h with ⟨-, htail, hbefore⟩
  have hpassed : passed.countP (fun x => decide (Outranks x ge)) =
      passed.countP fun x => edgeGroup x = edgeGroup ge := by
    refine List.countP_congr fun x hx => ?_
    rw [decide_eq_true_eq, decide_eq_true_eq]
    have hrank := hbefore x hx ge List.mem_cons_self
    exact ⟨And.left, outranks_of_edgeRankLe hrank.1 hrank.2⟩
  have hself : ¬ Outranks ge ge := Std.Irrefl.irrefl ge
  have hafter : edges.countP (fun x => decide (Outranks x ge)) = 0 := by
    refine List.countP_eq_zero.mpr fun x hx => ?_
    rw [decide_eq_true_eq]
    exact not_outranks_of_edgeRankLe (List.rel_of_pairwise_cons htail hx).1
  rw [rank, List.countP_append, List.countP_cons, hpassed, hafter]
  simp [hself]

end Sorted

/-! ## The walk -/

/-- `kept` is how many of the group were kept, for the group the walk is in. -/
lemma keepBest_spec {maxPerPair kept : ℕ} {current : Option (ℕ × ℕ)} {passed edges : List GraphEdge}
    (hsorted : (passed ++ edges).Pairwise RanksBefore)
    (hkept : ∀ ge ∈ edges, (if current = some (edgeGroup ge) then kept else 0) =
      min maxPerPair (passed.countP fun x => edgeGroup x = edgeGroup ge)) :
    (∀ ge, ge ∈ (keepBest maxPerPair current kept edges).1 ↔
      ge ∈ edges ∧ rank Outranks (passed ++ edges) ge < maxPerPair) ∧
    (∀ ge, ge ∈ (keepBest maxPerPair current kept edges).2 ↔
      ∃ x ∈ edges, maxPerPair ≤ rank Outranks (passed ++ edges) x ∧ ge = kill x) := by
  induction edges generalizing passed current kept with
  | nil => simp [keepBest]
  | cons head edges ih =>
      have hrank := rank_sorted hsorted
      have hhead := hkept head List.mem_cons_self
      rw [← hrank] at hhead
      rcases List.pairwise_append.mp hsorted with ⟨-, htail, hbefore⟩
      -- groups after the head's have not been met
      have hnext : ∀ ge ∈ edges, (if some (edgeGroup head) = some (edgeGroup ge) then
          min maxPerPair (rank Outranks (passed ++ head :: edges) head + 1) else 0) =
            min maxPerPair ((passed ++ [head]).countP fun x => edgeGroup x = edgeGroup ge) := by
        intro ge hge
        rw [List.countP_append, List.countP_singleton]
        by_cases hgroup : edgeGroup head = edgeGroup ge
        · rw [hrank, if_pos (congrArg some hgroup), hgroup]
          simp
        · have hnone : passed.countP (fun x => edgeGroup x = edgeGroup ge) = 0 := by
            refine List.countP_eq_zero.mpr fun x hx hsame => hgroup ?_
            exact edgeGroup_between (hbefore x hx head List.mem_cons_self).1
              (List.rel_of_pairwise_cons htail hge).1 (of_decide_eq_true hsame)
          rw [if_neg fun heq => hgroup (Option.some.inj heq), hnone]
          simp [hgroup]
      have hassoc : passed ++ head :: edges = passed ++ [head] ++ edges := by simp
      rw [keepBest, hhead]
      generalize hr : rank Outranks (passed ++ head :: edges) head = r at hnext
      dsimp only
      by_cases hlt : r < maxPerPair
      · have hmin : min maxPerPair r + 1 = min maxPerPair (r + 1) := by omega
        rw [if_pos (by omega), hmin]
        have hrest := ih (hassoc ▸ hsorted) hnext
        rw [← hassoc] at hrest
        simp only [List.mem_cons, hrest.1, hrest.2]
        refine ⟨fun ge => ⟨?_, ?_⟩, fun ge => ⟨?_, ?_⟩⟩
        · rintro (rfl | ⟨hmem, hrank'⟩)
          · exact ⟨.inl rfl, hr ▸ hlt⟩
          · exact ⟨.inr hmem, hrank'⟩
        · rintro ⟨rfl | hmem, hrank'⟩
          · exact .inl rfl
          · exact .inr ⟨hmem, hrank'⟩
        · rintro ⟨x, hx, hout⟩
          exact ⟨x, .inr hx, hout⟩
        · rintro ⟨x, rfl | hx, hout⟩
          · exact absurd hout.1 (not_le.mpr (hr ▸ hlt))
          · exact ⟨x, hx, hout⟩
      · have hmin : min maxPerPair r = min maxPerPair (r + 1) := by omega
        rw [if_neg (by omega), hmin]
        have hrest := ih (hassoc ▸ hsorted) hnext
        rw [← hassoc] at hrest
        simp only [List.mem_cons, hrest.1, hrest.2]
        refine ⟨fun ge => ⟨?_, ?_⟩, fun ge => ⟨?_, ?_⟩⟩
        · rintro ⟨hmem, hrank'⟩
          exact ⟨.inr hmem, hrank'⟩
        · rintro ⟨rfl | hmem, hrank'⟩
          · exact absurd (hr ▸ hrank') hlt
          · exact ⟨hmem, hrank'⟩
        · rintro (rfl | ⟨x, hx, hout⟩)
          · exact ⟨head, .inl rfl, hr ▸ not_lt.mp hlt, rfl⟩
          · exact ⟨x, .inr hx, hout⟩
        · rintro ⟨x, rfl | hx, hout⟩
          · exact .inl hout.2
          · exact .inr ⟨x, hx, hout⟩

/-! ## Thinning -/

section Thin

variable {edges : List GraphEdge} {maxPerPair : ℕ} {ge : GraphEdge}

lemma competes_iff : competes ge = true ↔ isLiveGraphEdge ge = true ∧ ge.phase = .direct := by
  rw [competes, Bool.and_eq_true, decide_eq_true_eq]

lemma isLiveGraphEdge_of_hub (h : ge.phase ≠ .direct) : isLiveGraphEdge ge = true := by
  rw [isLiveGraphEdge]
  cases hphase : ge.phase with
  | direct => exact absurd hphase h
  | enterPool => rfl
  | exitPool => rfl

lemma isLiveGraphEdge_kill (h : ge.phase = .direct) : isLiveGraphEdge (kill ge) = false := by
  simp [isLiveGraphEdge, h]

lemma thinParallelEdges_eq (edges : List GraphEdge) (maxPerPair : ℕ) :
    thinParallelEdges edges maxPerPair =
      if maxPerPair = 0 ∨ (edges.filter competes).length ≤ maxPerPair then
        edges.filter competes ++
          edges.filter (fun ge => !isLiveGraphEdge ge && decide (ge.phase = .direct)) ++
          edges.filter fun ge => ge.phase ≠ .direct
      else
        (keepBest maxPerPair none 0 ((edges.filter competes).mergeSort edgeRankLe)).1 ++
          (edges.filter (fun ge => !isLiveGraphEdge ge && decide (ge.phase = .direct)) ++
            (keepBest maxPerPair none 0 ((edges.filter competes).mergeSort edgeRankLe)).2) ++
          edges.filter fun ge => ge.phase ≠ .direct := by
  simp only [thinParallelEdges, List.filter_filter]
  rfl

variable (hpools : ((edges.filter fun ge => ge.phase = .direct).map edgePool).Nodup)
include hpools

lemma keepBest_live :
    (∀ ge, ge ∈ (keepBest maxPerPair none 0 ((edges.filter competes).mergeSort edgeRankLe)).1 ↔
      ge ∈ edges.filter competes ∧ rank Outranks (edges.filter competes) ge < maxPerPair) ∧
    (∀ ge, ge ∈ (keepBest maxPerPair none 0 ((edges.filter competes).mergeSort edgeRankLe)).2 ↔
      ∃ x ∈ edges.filter competes, maxPerPair ≤ rank Outranks (edges.filter competes) x ∧
        ge = kill x) := by
  have hsub : (edges.filter competes).Sublist (edges.filter fun ge => ge.phase = .direct) := by
    refine List.monotone_filter_right edges fun ge hge => ?_
    exact decide_eq_true (competes_iff.mp hge).2
  have hsorted := pairwise_sorted (hpools.sublist (hsub.map edgePool))
  have hperm := List.mergeSort_perm (edges.filter competes) edgeRankLe
  have hrank : ∀ ge, rank Outranks ((edges.filter competes).mergeSort edgeRankLe) ge =
      rank Outranks (edges.filter competes) ge := fun ge => hperm.countP_eq _
  have hstart : ∀ ge ∈ (edges.filter competes).mergeSort edgeRankLe,
      (if (none : Option (ℕ × ℕ)) = some (edgeGroup ge) then 0 else 0) =
        min maxPerPair (([] : List GraphEdge).countP fun x => edgeGroup x = edgeGroup ge) := by
    intro ge _
    simp
  simpa only [List.nil_append, hrank, hperm.mem_iff] using keepBest_spec hsorted hstart

/-- A live edge stays when it is among the best of its group. -/
theorem mem_thinParallelEdges (hmax : 0 < maxPerPair) (hlive : isLiveGraphEdge ge = true) :
    ge ∈ thinParallelEdges edges maxPerPair ↔
      ge ∈ edges ∧ (ge.phase = .direct → rank Outranks (edges.filter competes) ge < maxPerPair) := by
  have hcompetes : ∀ {x}, x ∈ edges.filter competes ↔
      x ∈ edges ∧ isLiveGraphEdge x = true ∧ x.phase = .direct := by
    intro x
    rw [List.mem_filter, competes_iff]
  have hstub : ge ∉ edges.filter fun ge => !isLiveGraphEdge ge && decide (ge.phase = .direct) := by
    simp [hlive]
  have hhub : ge ∈ (edges.filter fun ge => ge.phase ≠ .direct) ↔ ge ∈ edges ∧ ge.phase ≠ .direct := by
    simp
  have hkept : ge ∈ edges.filter competes ∧ rank Outranks (edges.filter competes) ge < maxPerPair ∨
      ge ∈ edges ∧ ge.phase ≠ .direct ↔
      ge ∈ edges ∧ (ge.phase = .direct → rank Outranks (edges.filter competes) ge < maxPerPair) := by
    rw [hcompetes]
    by_cases hphase : ge.phase = .direct <;> simp [hphase, hlive]
  rw [thinParallelEdges_eq, ← hkept]
  split_ifs with hfew
  · -- so few that each of them has a low rank
    have hrank : ge ∈ edges.filter competes ↔
        ge ∈ edges.filter competes ∧ rank Outranks (edges.filter competes) ge < maxPerPair :=
      (and_iff_left_of_imp fun hmem =>
        (rank_lt_length hmem).trans_le (hfew.resolve_left hmax.ne')).symm
    simp only [List.mem_append, hstub, or_false, hhub]
    exact or_congr hrank Iff.rfl
  · have hkilled : ge ∉
        (keepBest maxPerPair none 0 ((edges.filter competes).mergeSort edgeRankLe)).2 := by
      intro hmem
      rcases ((keepBest_live hpools).2 ge).mp hmem with ⟨x, hx, -, rfl⟩
      rw [isLiveGraphEdge_kill (hcompetes.mp hx).2.2] at hlive
      cases hlive
    simp only [List.mem_append, hstub, hkilled, or_false, hhub, (keepBest_live hpools).1]

/-- The others are stubs. -/
lemma kill_mem_thinParallelEdges (hmax : 0 < maxPerPair) (hge : ge ∈ edges)
    (hcompetes : competes ge = true)
    (hrank : maxPerPair ≤ rank Outranks (edges.filter competes) ge) :
    kill ge ∈ thinParallelEdges edges maxPerPair := by
  have hmem : ge ∈ edges.filter competes := List.mem_filter.mpr ⟨hge, hcompetes⟩
  have hmany : ¬ (maxPerPair = 0 ∨ (edges.filter competes).length ≤ maxPerPair) := by
    have hlt : rank Outranks (edges.filter competes) ge < (edges.filter competes).length :=
      rank_lt_length hmem
    omega
  rw [thinParallelEdges_eq, if_neg hmany]
  have hstub := ((keepBest_live hpools).2 (kill ge)).mpr ⟨ge, hmem, hrank, rfl⟩
  simp only [List.mem_append, hstub, or_true, true_or]

end Thin

end PolygonArb

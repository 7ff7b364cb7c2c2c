import PolygonArb.Pipeline.NegativeCycle

/-!
# What the Bellman-Ford search emits and leaves behind

The predecessors change while distances are relaxed, so nothing is said about how a distance came
about.  What always holds is that a predecessor edge leads to its token from the predecessor node
(`Relaxed`), which is enough for a traced cycle to be a walk, and that a token that was not touched has
a pristine slot, which is enough for the reset.

The marks of visited tokens are not reset.  `MarksOk` says why the next generation is a fresh one, and
`alike_collect` that a search gives the same cycles on any marks.
-/

namespace PolygonArb

open Word Loop

/-! ## Slots -/

section Slots

variable {slots : List BfSlot}

lemma slotAt_set (v w : ℕ) (slot : BfSlot) :
    slotAt (slots.set v slot) w = if w = v ∧ v < slots.length then slot else slotAt slots w := by
  by_cases hwv : w = v
  · subst hwv
    by_cases hlt : w < slots.length
    · simp [slotAt, hlt]
    · simp [slotAt, hlt]
  · simp [slotAt, hwv, List.getElem?_set_ne (Ne.symm hwv)]

lemma length_resetSlots (touched : List ℕ) :
    ∀ slots : List BfSlot, (resetSlots slots touched).length = slots.length := by
  induction touched with
  | nil => exact fun _ => rfl
  | cons token touched ih =>
      intro slots
      rw [resetSlots, List.foldl_cons, ← resetSlots, ih, List.length_set]

/-- The reset gives the touched tokens a pristine slot and leaves the others. -/
lemma slotAt_resetSlots (touched : List ℕ) :
    ∀ (slots : List BfSlot) (v : ℕ),
      slotAt (resetSlots slots touched) v = if v ∈ touched then .pristine else slotAt slots v := by
  induction touched with
  | nil =>
      intro slots v
      simp [resetSlots]
  | cons token touched ih =>
      intro slots v
      rw [resetSlots, List.foldl_cons, ← resetSlots, ih, slotAt_set]
      by_cases htoken : v = token
      · subst htoken
        by_cases hlt : v < slots.length
        · simp [hlt]
        · have hout : slotAt slots v = .pristine := by
            simp [slotAt, List.getElem?_eq_none (not_lt.mp hlt)]
          simp [hlt, hout]
      · simp [htoken]

end Slots

/-! ## Relaxation -/

/-- Untouched tokens are pristine, and a predecessor edge is an edge from the predecessor node. -/
structure Relaxed (adj : List (List WeightedEdge)) (n : ℕ) (slots : List BfSlot) (touched : List ℕ) :
    Prop where
  length : slots.length = n
  pristine : ∀ v, v ∉ touched → slotAt slots v = .pristine
  pred : ∀ v we, (slotAt slots v).predEdge = some we →
    ∃ u, (slotAt slots v).predNode = some u ∧ we ∈ weightedEdgesAt adj u ∧ we.edge.tokenOut = v

section Relax

variable {adj : List (List WeightedEdge)} {n : ℕ} {s : BfState} {u : TokenIndex} {we : WeightedEdge}

/-- An infinite distance is not finite, so the first relaxation of a token is noticed. -/
lemma isFinite_pristine : BfSlot.pristine.dist.isFinite = false := by
  decide

/-- What relaxing an edge does: nothing, or a new slot for the token it leads to. -/
lemma relaxEdge_cases (u : TokenIndex) (uDist : Float) (uRatio : U256) (s : BfState)
    (we : WeightedEdge) :
    relaxEdge u uDist uRatio s we = s ∨
      ∃ slot : BfSlot, slot.predNode = some u ∧ slot.predEdge = some we ∧
        (relaxEdge u uDist uRatio s we).slots = s.slots.set we.edge.tokenOut slot ∧
        (relaxEdge u uDist uRatio s we).touched =
          if (slotAt s.slots we.edge.tokenOut).dist.isFinite then s.touched
          else s.touched ++ [we.edge.tokenOut] := by
  simp only [relaxEdge]
  by_cases hout : s.slots.length ≤ we.edge.tokenOut ∨ we.ratio = 0
  · rw [if_pos hout]
    exact .inl rfl
  · rw [if_neg hout]
    split
    · exact .inr ⟨_, rfl, rfl, rfl, rfl⟩
    · exact .inl rfl

lemma relaxed_relaxEdge (uDist : Float) (uRatio : U256) (hmem : we ∈ weightedEdgesAt adj u)
    (h : Relaxed adj n s.slots s.touched) :
    Relaxed adj n (relaxEdge u uDist uRatio s we).slots (relaxEdge u uDist uRatio s we).touched := by
  rcases relaxEdge_cases u uDist uRatio s we with heq | ⟨slot, hnode, hedge, hslots, htouched⟩
  · rw [heq]
    exact h
  rw [hslots, htouched]
  refine ⟨List.length_set.trans h.length, fun v hv => ?_, fun v we' hpred => ?_⟩
  · -- a token with a finite distance was touched before
    have hold : v ∉ s.touched ∧ v ≠ we.edge.tokenOut := by
      split_ifs at hv with hfinite
      · refine ⟨hv, ?_⟩
        rintro rfl
        rw [h.pristine _ hv, isFinite_pristine] at hfinite
        cases hfinite
      · rw [List.mem_append, not_or, List.mem_singleton] at hv
        exact hv
    rw [slotAt_set, if_neg fun hset => hold.2 hset.1]
    exact h.pristine v hold.1
  · rw [slotAt_set] at hpred ⊢
    split_ifs at hpred ⊢ with hset
    · rw [hedge] at hpred
      cases hpred
      exact ⟨u, hnode, hmem, hset.1.symm⟩
    · exact h.pred v we' hpred

lemma relaxed_relaxNode (h : Relaxed adj n s.slots s.touched) :
    Relaxed adj n (relaxNode adj s u).slots (relaxNode adj s u).touched :=
  List.foldlRecOn (weightedEdgesAt adj u) _ (motive := fun s : BfState => Relaxed adj n s.slots s.touched) h
    fun _ hs _ hmem => relaxed_relaxEdge _ _ hmem hs

/-- A slot keeps its predecessor when it leaves the round. -/
lemma relaxed_clearInNext {slots : List BfSlot} {touched : List ℕ} (h : Relaxed adj n slots touched) :
    Relaxed adj n (clearInNext slots u) touched := by
  have hslot : ∀ v, slotAt (clearInNext slots u) v = slotAt slots v ∨
      slotAt (clearInNext slots u) v = { slotAt slots v with inNext := false } := by
    intro v
    rw [clearInNext, slotAt_set]
    split_ifs with hset
    · rw [hset.1]
      exact .inr rfl
    · exact .inl rfl
  refine ⟨List.length_set.trans h.length, fun v hv => ?_, fun v we hpred => ?_⟩
  · rcases hslot v with heq | heq
    · rw [heq, h.pristine v hv]
    · rw [heq, h.pristine v hv]
      rfl
  · rcases hslot v with heq | heq
    · rw [heq] at hpred ⊢
      exact h.pred v we hpred
    · rw [heq] at hpred ⊢
      exact h.pred v we hpred

lemma relaxed_relaxRound {active : List ℕ} (h : Relaxed adj n s.slots s.touched) :
    Relaxed adj n (relaxRound adj active s).slots (relaxRound adj active s).touched := by
  have hcleared : Relaxed adj n (active.foldl clearInNext s.slots) s.touched :=
    List.foldlRecOn active _ (motive := fun slots => Relaxed adj n slots s.touched) h
      fun _ hs _ _ => relaxed_clearInNext hs
  exact List.foldlRecOn active _ (motive := fun s : BfState => Relaxed adj n s.slots s.touched) hcleared
    fun _ hs _ _ => relaxed_relaxNode hs

lemma relaxed_relaxRounds (rounds : ℕ) :
    ∀ (active : List ℕ) (s : BfState), Relaxed adj n s.slots s.touched →
      Relaxed adj n (relaxRounds adj rounds active s).slots (relaxRounds adj rounds active s).touched := by
  induction rounds with
  | zero => exact fun _ _ h => h
  | succ rounds ih =>
      intro active s h
      rw [relaxRounds]
      split_ifs
      · exact h
      · exact ih _ _ (relaxed_relaxRound h)

/-- After the relaxation from a source on pristine slots. -/
lemma relaxed_relaxFrom {slots : List BfSlot} (hslots : ∀ v, slotAt slots v = .pristine) (rounds : ℕ)
    (source : TokenIndex) :
    Relaxed adj slots.length (relaxFrom adj rounds source slots).slots
      (relaxFrom adj rounds source slots).touched := by
  refine relaxed_relaxRounds rounds _ _ ⟨List.length_set, fun v hv => ?_, fun v we hpred => ?_⟩
  · rw [List.mem_singleton] at hv
    rw [slotAt_set, if_neg fun hset => hv hset.1, hslots v]
  · rw [slotAt_set] at hpred
    split_ifs at hpred
    · rw [hslots source] at hpred
      cases hpred
    · rw [hslots v] at hpred
      cases hpred

end Relax

/-! ## Traced cycles -/

/-- Every edge is filed under the token it leaves. -/
def EdgesLeave (adj : List (List WeightedEdge)) : Prop :=
  ∀ u, ∀ we ∈ weightedEdgesAt adj u, we.edge.tokenIn = u

/-- The weighted adjacency of a well-formed graph. -/
lemma edgesLeave_buildWeightedAdjacency {graph : RoutingGraph}
    (h : EdgesWellFormed graph.tokenCount graph.edgesAt) : EdgesLeave (buildWeightedAdjacency graph) := by
  intro u we hmem
  rw [weightedEdgesAt, buildWeightedAdjacency, List.getElem?_map, List.getElem?_take] at hmem
  by_cases hu : u < graph.tokenCount
  · rw [if_pos hu] at hmem
    cases hget : graph.adjacency[u]? with
    | none =>
        rw [hget] at hmem
        cases hmem
    | some edges =>
        rw [hget] at hmem
        rcases List.mem_map.mp hmem with ⟨ge, hge, rfl⟩
        refine h.token_in u hu ge ?_
        rw [RoutingGraph.edgesAt, hget]
        exact List.mem_of_mem_filter hge
  · rw [if_neg hu] at hmem
    cases hmem

section Trace

variable {adj : List (List WeightedEdge)} {n : ℕ} {slots : List BfSlot} {touched : List ℕ}

lemma length_traceBack (start : TokenIndex) :
    ∀ (hops : ℕ) (t : Option TokenIndex), (traceBack slots start hops t).length ≤ hops := by
  intro hops
  induction hops with
  | zero => exact fun _ => le_rfl
  | succ hops ih =>
      intro t
      cases t with
      | none => exact Nat.zero_le _
      | some t =>
          rw [traceBack]
          split
          · exact Nat.zero_le _
          · dsimp only
            rw [List.length_cons]
            split_ifs
            · exact Nat.succ_le_succ (Nat.zero_le _)
            · exact Nat.succ_le_succ (ih _)

/-- The traced edges are edges of the graph, and turned around they are a walk to where the trace
began. -/
lemma traceBack_walk (hadj : EdgesLeave adj) (h : Relaxed adj n slots touched) (start : TokenIndex) :
    ∀ (hops : ℕ) (t : TokenIndex),
      (∀ we ∈ traceBack slots start hops (some t), we ∈ weightedEdgesAt adj we.edge.tokenIn) ∧
        ∃ first, Walk first ((traceBack slots start hops (some t)).map WeightedEdge.edge).reverse t := by
  intro hops
  induction hops with
  | zero => exact fun t => ⟨by simp [traceBack], t, .nil⟩
  | succ hops ih =>
      intro t
      rw [traceBack]
      cases hpred : (slotAt slots t).predEdge with
      | none => exact ⟨by simp, t, .nil⟩
      | some we =>
          rcases h.pred t we hpred with ⟨u, hnode, hmem, rfl⟩
          have hin : we.edge.tokenIn = u := hadj u we hmem
          dsimp only
          rw [hnode, List.map_cons, List.reverse_cons]
          have hrest : ∀ rest : List WeightedEdge,
              (∀ we ∈ rest, we ∈ weightedEdgesAt adj we.edge.tokenIn) →
              (∃ first, Walk first (rest.map WeightedEdge.edge).reverse u) →
              (∀ we' ∈ we :: rest, we' ∈ weightedEdgesAt adj we'.edge.tokenIn) ∧
                ∃ first, Walk first ((rest.map WeightedEdge.edge).reverse ++ [we.edge])
                  we.edge.tokenOut := by
            rintro rest hrest ⟨first, hwalk⟩
            refine ⟨fun we' hwe' => ?_, first, hwalk.push hin⟩
            rcases List.mem_cons.mp hwe' with rfl | hwe'
            · rw [hin]
              exact hmem
            · exact hrest we' hwe'
          split_ifs
          · exact hrest [] (by simp) ⟨u, .nil⟩
          · exact hrest _ (ih u).1 (ih u).2

end Trace

section Simple

variable {edges : List Edge} {calls : ℕ}

lemma nodup_map_of_take {f : Edge → ℕ}
    (h : ∀ i e, edges[i]? = some e → ∀ e' ∈ edges.take i, f e' ≠ f e) : (edges.map f).Nodup := by
  rw [List.Nodup, List.pairwise_iff_getElem]
  intro i j hi hj hij
  rw [List.length_map] at hi hj
  rw [List.getElem_map, List.getElem_map]
  refine h j edges[j] (List.getElem?_eq_getElem hj) edges[i] ?_
  rw [List.mem_take_iff_getElem]
  exact ⟨i, by omega, rfl⟩

/-- What passes the check closes and repeats no pool and no token. -/
lemma isSimpleCycle_eq_some (h : isSimpleCycle edges = some calls) :
    2 ≤ edges.length ∧ calls = estimatePackedRouteCalls edges ∧
      edges.getLast?.map Edge.tokenOut = some ((edges.head?.map Edge.tokenIn).getD 0) ∧
      (edges.map Edge.poolIndex).Nodup ∧ (edges.map Edge.tokenOut).Nodup := by
  rw [isSimpleCycle] at h
  dsimp only at h
  split_ifs at h with hlen hclosed hsimple
  cases h
  rw [not_not] at hclosed
  generalize (edges.head?.map Edge.tokenIn).getD 0 = start at hclosed hsimple ⊢
  rw [List.all_eq_true] at hsimple
  have hat : ∀ i e, edges[i]? = some e → simpleAt edges start i e = true := by
    intro i e hget
    exact hsimple (e, i) (List.mk_mem_zipIdx_iff_getElem?.mpr hget)
  have hpool : ∀ i e, edges[i]? = some e → ∀ e' ∈ edges.take i, e'.poolIndex ≠ e.poolIndex := by
    intro i e hget e' he'
    have hi := (Bool.and_eq_true_iff.mp (hat i e hget)).1
    simpa using List.all_eq_true.mp hi e' he'
  have hmiddle : ∀ i e, edges[i]? = some e → i < edges.length - 1 →
      e.tokenOut ≠ start ∧ ∀ e' ∈ edges.take i, e'.tokenOut ≠ e.tokenOut := by
    intro i e hget hi
    have hrest := (Bool.and_eq_true_iff.mp (hat i e hget)).2
    rw [Bool.or_eq_true, decide_eq_true_eq] at hrest
    rcases hrest with hlast | hrest
    · omega
    · simpa using hrest
  refine ⟨not_lt.mp hlen, rfl, hclosed, nodup_map_of_take hpool, nodup_map_of_take ?_⟩
  intro i e hget e' he'
  by_cases hi : i < edges.length - 1
  · exact (hmiddle i e hget hi).2 e' he'
  · -- the last edge arrives at the start, where no other does
    rcases List.mem_take_iff_getElem.mp he' with ⟨j, hj, rfl⟩
    have hlt := (List.getElem?_eq_some_iff.mp hget).1
    have hend : e.tokenOut = start := by
      have hi' : i = edges.length - 1 := by omega
      rw [List.getLast?_eq_getElem?, ← hi', hget] at hclosed
      exact Option.some.inj hclosed
    rw [hend]
    exact (hmiddle j edges[j] (List.getElem?_eq_getElem _) (by omega)).1

end Simple

/-! ## Emission -/

/-- A cycle as the search may emit it. -/
structure BfEnv.Emitted (env : BfEnv) (c : FoundCycle) : Prop where
  closed : Walk c.startToken c.edges c.startToken
  pools : (c.edges.map Edge.poolIndex).Nodup
  tokens : (c.edges.map Edge.tokenOut).Nodup
  two_le : 2 ≤ c.edges.length
  le_cap : c.edges.length ≤ min env.maxHops PolygonArb.hopCap
  hopCount : c.hopCount = c.edges.length
  /-- The ratio is the product over edges of the graph, taken from the last to the first. -/
  ratio : ∃ traced : List WeightedEdge,
    (∀ we ∈ traced, we ∈ weightedEdgesAt env.adj we.edge.tokenIn) ∧
      c.edges = (traced.map WeightedEdge.edge).reverse ∧
      c.cycleRatio = foldRatio one18 (traced.map WeightedEdge.ratio)
  above_one : one18 < c.cycleRatio
  profitable : minProfitableCycleRatio c.edges.length ≤ c.cycleRatio
  fits : routeFitsExecutor c.edges = true

namespace BfEnv

section Emission

variable {env : BfEnv} {n : ℕ} {slots : List BfSlot} {touched : List ℕ} {x x' : ExtractState}

/-- What is new in the list of cycles is as described. -/
def Emits (env : BfEnv) (x x' : ExtractState) : Prop :=
  ∀ c ∈ x'.cycles, c ∈ x.cycles ∨ env.Emitted c

/-- Traced edges that pass all the checks. -/
lemma emitted_tracedCycle {traced : List WeightedEdge} {first last : TokenIndex}
    (hmem : ∀ we ∈ traced, we ∈ weightedEdgesAt env.adj we.edge.tokenIn)
    (hwalk : Walk first (traced.map WeightedEdge.edge).reverse last) (hlen : traced.length ≤ env.hops)
    {calls : ℕ} (hsimple : isSimpleCycle (tracedCycle traced).edges = some calls)
    (hfits : packedCallsFitExecutor calls = true) (habove : one18 < (tracedCycle traced).cycleRatio)
    (hprofit : minProfitableCycleRatio (tracedCycle traced).edges.length ≤
      (tracedCycle traced).cycleRatio) : env.Emitted (tracedCycle traced) := by
  rcases isSimpleCycle_eq_some hsimple with ⟨htwo, rfl, hclosed, hpools, htokens⟩
  have hne : (tracedCycle traced).edges ≠ [] := by
    intro hnil
    rw [hnil] at htwo
    simp at htwo
  rcases hwalk.ends hne with ⟨hhead, hlast⟩
  have hstart : (tracedCycle traced).startToken = first := by
    rw [tracedCycle, hhead]
    rfl
  have hend : last = first := by
    have hboth : some last = some first := by
      rw [← hlast, ← hstart]
      exact hclosed
    exact Option.some.inj hboth
  refine ⟨?_, hpools, htokens, htwo, ?_, rfl, ⟨traced, hmem, rfl, rfl⟩, habove, hprofit, hfits⟩
  · rw [hstart]
    exact hend ▸ hwalk
  · rw [tracedCycle, List.length_reverse, List.length_map]
    exact hlen

lemma keepCycle_emits (hadj : EdgesLeave env.adj) (h : Relaxed env.adj n slots touched)
    (start : TokenIndex) (x : ExtractState) :
    env.Emits x (keepCycle (traceBack slots start env.hops (some start)) x) := by
  rcases traceBack_walk hadj h start env.hops start with ⟨hmem, first, hwalk⟩
  have hlen : (traceBack slots start env.hops (some start)).length ≤ env.hops :=
    length_traceBack start env.hops (some start)
  generalize traceBack slots start env.hops (some start) = traced at hmem hwalk hlen ⊢
  intro c hc
  simp only [keepCycle] at hc
  cases hsimple : isSimpleCycle (tracedCycle traced).edges with
  | none =>
      rw [hsimple] at hc
      exact .inl hc
  | some routeCalls =>
      rw [hsimple] at hc
      dsimp only at hc
      split_ifs at hc with hrejected hfound
      · exact .inl hc
      · exact .inl hc
      rcases List.mem_append.mp hc with hc | hc
      · exact .inl hc
      rw [List.mem_singleton.mp hc]
      rw [not_or, not_or] at hrejected
      refine .inr (emitted_tracedCycle hmem hwalk hlen hsimple (by simpa using hrejected.1) ?_ ?_)
      · exact BitVec.not_le.mp hrejected.2.1
      · exact BitVec.not_lt.mp hrejected.2.2

lemma Emits.trans {x y z : ExtractState} (h : env.Emits x y) (h' : env.Emits y z) : env.Emits x z := by
  intro c hc
  rcases h' c hc with hc | hc
  · exact h c hc
  · exact .inr hc

lemma extractCycle_emits (hadj : EdgesLeave env.adj) (h : Relaxed env.adj n slots touched)
    (u : TokenIndex) (x : ExtractState) : env.Emits x (env.extractCycle slots u x) := by
  simp only [extractCycle]
  split
  · exact fun c hc => .inl hc
  · rename_i start _
    exact keepCycle_emits hadj h start _

lemma shouldStop_snd {y : ExtractState} {b : Bool} (h : env.shouldStop x = (b, y)) : y = x.tick :=
  (congrArg Prod.snd h).symm

lemma emits_tick : env.Emits x x.tick := fun _ hc => .inl hc

lemma extractEdge_emits (hadj : EdgesLeave env.adj) (h : Relaxed env.adj n slots touched)
    (u : TokenIndex) (x : ExtractState) (we : WeightedEdge) :
    env.Emits x (env.extractEdge slots u x we).state := by
  rw [extractEdge]
  split
  · rename_i y hstop
    rw [shouldStop_snd hstop]
    exact emits_tick
  · rename_i y hstop
    rw [shouldStop_snd hstop]
    split_ifs
    · exact emits_tick
    · exact emits_tick
    · exact emits_tick.trans (extractCycle_emits hadj h u x.tick)

lemma extractNode_emits (hadj : EdgesLeave env.adj) (h : Relaxed env.adj n slots touched)
    (x : ExtractState) (u : TokenIndex) : env.Emits x (env.extractNode slots x u).state := by
  rw [extractNode]
  split
  · rename_i y hstop
    rw [shouldStop_snd hstop]
    exact emits_tick
  · rename_i y hstop
    rw [shouldStop_snd hstop]
    split_ifs
    · exact emits_tick
    · refine emits_tick.trans (forLoop_inv (env.Emits x.tick) _ x.tick ?_ fun _ hc => .inl hc)
      exact fun we _ y hy => hy.trans (extractEdge_emits hadj h u y we)

end Emission

end BfEnv

/-! ## Marks -/

/-- No mark is ahead of the generation. -/
structure MarksOk (n : ℕ) (marks : VisitMarks) : Prop where
  length : marks.visited.length = n
  le : ∀ g ∈ marks.visited, g ≤ marks.generation
  lt : marks.generation < 2 ^ 32

section Marks

variable {n : ℕ} {marks : VisitMarks} {slots : List BfSlot}

/-- The next generation is on no token. -/
lemma MarksOk.next (h : MarksOk n marks) :
    MarksOk n marks.next ∧ ∀ c : ℕ, marks.next.visited[c]? ≠ some marks.next.generation := by
  have hlt := h.lt
  simp only [VisitMarks.next]
  split_ifs with hwrap
  · refine ⟨⟨(List.length_map _).trans h.length, ?_, by norm_num⟩, ?_⟩
    · simp
    · intro c hc
      have hmem := List.mem_of_getElem? hc
      simp at hmem
  · refine ⟨⟨h.length, fun g hg => ?_, Nat.mod_lt _ (by norm_num)⟩, fun c hc => ?_⟩
    · have hg' := h.le g hg
      dsimp only
      omega
    · have hg' := h.le _ (List.mem_of_getElem? hc)
      dsimp only at hg'
      omega

/-- The walk only leaves marks of its own generation. -/
lemma walkBack_marks (generation : ℕ) :
    ∀ (fuel : ℕ) (c : Option TokenIndex) (visited : List ℕ),
      (walkBack slots generation fuel c visited).2.length = visited.length ∧
        ∀ g ∈ (walkBack slots generation fuel c visited).2, g ∈ visited ∨ g = generation := by
  intro fuel
  induction fuel with
  | zero =>
      intro c visited
      cases c <;> exact ⟨rfl, fun g hg => .inl hg⟩
  | succ fuel ih =>
      intro c visited
      cases c with
      | none => exact ⟨rfl, fun g hg => .inl hg⟩
      | some c =>
          rw [walkBack]
          split_ifs
          · exact ⟨rfl, fun g hg => .inl hg⟩
          · rcases ih (slotAt slots c).predNode (visited.set c generation) with ⟨hlen, hmem⟩
            refine ⟨hlen.trans List.length_set, fun g hg => ?_⟩
            rcases hmem g hg with hset | rfl
            · exact List.mem_or_eq_of_mem_set hset
            · exact .inr rfl

/-- Where the walk ends depends on which tokens carry the generation, not on which one it is. -/
lemma walkBack_congr {generation generation' : ℕ} :
    ∀ (fuel : ℕ) (c : Option TokenIndex) (visited visited' : List ℕ),
      visited.length = visited'.length →
      (∀ c : ℕ, visited[c]? = some generation ↔ visited'[c]? = some generation') →
      (walkBack slots generation fuel c visited).1 = (walkBack slots generation' fuel c visited').1 := by
  intro fuel
  induction fuel with
  | zero =>
      intro c visited visited' _ _
      cases c <;> rfl
  | succ fuel ih =>
      intro c visited visited' hlen hsame
      cases c with
      | none => rfl
      | some c =>
          have hiff : (visited.length ≤ c ∨ visited[c]? = some generation) ↔
              (visited'.length ≤ c ∨ visited'[c]? = some generation') := by
            rw [hlen, hsame c]
          rw [walkBack, walkBack]
          by_cases hends : visited'.length ≤ c ∨ visited'[c]? = some generation'
          · rw [if_pos hends, if_pos (hiff.mpr hends)]
          · rw [if_neg hends, if_neg (mt hiff.mp hends)]
            rw [not_or, not_le] at hends
            refine ih _ _ _ (by simp [hlen]) fun c' => ?_
            by_cases hc : c' = c
            · subst hc
              have hlt : c' < visited.length := hlen ▸ hends.1
              simp [hends.1, hlt]
            · rw [List.getElem?_set_ne (Ne.symm hc), List.getElem?_set_ne (Ne.symm hc)]
              exact hsame c'

/-- Tokens that are still free for the walk. -/
def freeTokens (generation : ℕ) (visited : List ℕ) : ℕ := visited.countP fun g => g ≠ generation

/-- Every step of the walk takes a free token, so the fuel outlasts it. -/
lemma walkBack_succ (generation : ℕ) :
    ∀ (fuel : ℕ) (c : Option TokenIndex) (visited : List ℕ), freeTokens generation visited < fuel →
      walkBack slots generation (fuel + 1) c visited = walkBack slots generation fuel c visited := by
  intro fuel
  induction fuel with
  | zero =>
      intro c visited hfree
      exact absurd hfree (Nat.not_lt_zero _)
  | succ fuel ih =>
      intro c visited hfree
      cases c with
      | none => rfl
      | some c =>
          rw [walkBack, walkBack]
          split_ifs with hends
          · rfl
          · rw [not_or, not_le] at hends
            refine ih _ _ ?_
            have hget : visited[c] ≠ generation := by
              intro heq
              exact hends.2 ((List.getElem?_eq_getElem hends.1).trans (congrArg some heq))
            have hcount : freeTokens generation (visited.set c generation) + 1 =
                freeTokens generation visited := by
              have hpos : 0 < freeTokens generation visited :=
                List.countP_pos_iff.mpr ⟨visited[c], List.getElem_mem hends.1, by simpa using hget⟩
              have hset : freeTokens generation (visited.set c generation) =
                  freeTokens generation visited - 1 := by
                simp [freeTokens, List.countP_set hends.1, hget]
              omega
            omega

/-- The fuel of the search is as good as any above it. -/
theorem walkBack_of_le {generation fuel : ℕ} {c : Option TokenIndex} {visited : List ℕ}
    (h : visited.length + 1 ≤ fuel) :
    walkBack slots generation fuel c visited =
      walkBack slots generation (visited.length + 1) c visited := by
  have hfree : freeTokens generation visited ≤ visited.length := List.countP_le_length
  induction fuel, h using Nat.le_induction with
  | base => rfl
  | succ fuel hle ih => rw [walkBack_succ generation fuel c visited (by omega), ih]

end Marks

/-! ## Searches on different marks -/

/-- Two extractions that only differ in their marks. -/
structure Alike (n : ℕ) (x x' : ExtractState) : Prop where
  foundKeys : x.foundKeys = x'.foundKeys
  cycles : x.cycles = x'.cycles
  asked : x.asked = x'.asked
  marks : MarksOk n x.marks
  marks' : MarksOk n x'.marks

namespace BfEnv

section Alike

variable {env : BfEnv} {n : ℕ} {slots : List BfSlot} {x x' : ExtractState}

lemma alike_tick (h : Alike n x x') : Alike n x.tick x'.tick :=
  ⟨h.foundKeys, h.cycles, congrArg (· + 1) h.asked, h.marks, h.marks'⟩

/-- Both get the same answer. -/
lemma shouldStop_alike (env : BfEnv) (h : Alike n x x') :
    ∃ b, env.shouldStop x = (b, x.tick) ∧ env.shouldStop x' = (b, x'.tick) := by
  refine ⟨(env.shouldStop x).1, rfl, ?_⟩
  rw [shouldStop, shouldStop, h.asked, h.cycles]

lemma alike_keepCycle (traced : List WeightedEdge) (h : Alike n x x') :
    Alike n (keepCycle traced x) (keepCycle traced x') := by
  simp only [keepCycle, h.foundKeys]
  split
  · exact h
  · split_ifs
    · exact h
    · exact h
    · exact ⟨rfl, congrArg (· ++ [tracedCycle traced]) h.cycles, h.asked, h.marks, h.marks'⟩

/-- The marks after a walk on a new generation. -/
lemma marksOk_walkBack {marks : VisitMarks} (h : MarksOk n marks) (fuel : ℕ) (c : Option TokenIndex) :
    MarksOk n ⟨(walkBack slots marks.next.generation fuel c marks.next.visited).2,
      marks.next.generation⟩ := by
  rcases walkBack_marks marks.next.generation fuel c marks.next.visited with ⟨hlen, hmem⟩
  refine ⟨hlen.trans h.next.1.length, fun g hg => ?_, h.next.1.lt⟩
  rcases hmem g hg with hg | rfl
  · exact h.next.1.le g hg
  · exact le_rfl

lemma alike_extractCycle (u : TokenIndex) (h : Alike n x x') :
    Alike n (env.extractCycle slots u x) (env.extractCycle slots u x') := by
  -- no token carries the new generation, so both walks end at the same token
  have hwalk : (walkBack slots x.marks.next.generation (n + 1) (some u) x.marks.next.visited).1 =
      (walkBack slots x'.marks.next.generation (n + 1) (some u) x'.marks.next.visited).1 :=
    walkBack_congr (n + 1) (some u) _ _ (h.marks.next.1.length.trans h.marks'.next.1.length.symm)
      fun c => iff_of_false (h.marks.next.2 c) (h.marks'.next.2 c)
  have halike : Alike n
      { x with marks := ⟨(walkBack slots x.marks.next.generation (n + 1) (some u)
        x.marks.next.visited).2, x.marks.next.generation⟩ }
      { x' with marks := ⟨(walkBack slots x'.marks.next.generation (n + 1) (some u)
        x'.marks.next.visited).2, x'.marks.next.generation⟩ } :=
    ⟨h.foundKeys, h.cycles, h.asked, marksOk_walkBack h.marks _ _, marksOk_walkBack h.marks' _ _⟩
  simp only [extractCycle, h.marks.next.1.length, h.marks'.next.1.length, ← hwalk]
  split
  · exact halike
  · exact alike_keepCycle _ halike

lemma alike_extractEdge (u : TokenIndex) (we : WeightedEdge) (h : Alike n x x') :
    LoopStep.Rel (Alike n) (env.extractEdge slots u x we) (env.extractEdge slots u x' we) := by
  rcases shouldStop_alike env h with ⟨b, hx, hx'⟩
  rw [extractEdge, extractEdge, hx, hx']
  cases b with
  | true => exact .break (alike_tick h)
  | false =>
      dsimp only
      split_ifs
      · exact .continue (alike_tick h)
      · exact .continue (alike_tick h)
      · exact .continue (alike_extractCycle u (alike_tick h))

lemma alike_extractNode (u : TokenIndex) (h : Alike n x x') :
    LoopStep.Rel (Alike n) (env.extractNode slots x u) (env.extractNode slots x' u) := by
  rcases shouldStop_alike env h with ⟨b, hx, hx'⟩
  rw [extractNode, extractNode, hx, hx']
  cases b with
  | true => exact .break (alike_tick h)
  | false =>
      dsimp only
      split_ifs
      · exact .continue (alike_tick h)
      · exact forLoop_rel (Alike n) _ _ _ (fun we _ _ _ => alike_extractEdge u we) (alike_tick h)

end Alike

end BfEnv

/-! ## The search from one source -/

/-- The scratch as every search finds it: the slots are pristine, the marks behind the generation. -/
structure BfScratch.Pristine (scratch : BfScratch) : Prop where
  slots : ∀ slot ∈ scratch.slots, slot = .pristine
  marks : MarksOk scratch.slots.length scratch.marks

/-- The scratch of a run. -/
def BfRun.scratch (run : BfRun) : BfScratch := ⟨run.slots, run.marks⟩

section Collect

variable {env : BfEnv} {source : TokenIndex} {run run' : BfRun}

lemma BfScratch.Pristine.slotAt {scratch : BfScratch} (h : scratch.Pristine) (v : ℕ) :
    slotAt scratch.slots v = .pristine := by
  rw [PolygonArb.slotAt]
  cases hget : scratch.slots[v]? with
  | none => rfl
  | some slot => exact h.slots slot (List.mem_of_getElem? hget)

/-- A list of slots that all read pristine is its length in pristine slots. -/
lemma eq_replicate_of_slotAt {slots : List BfSlot} (h : ∀ v, slotAt slots v = .pristine) :
    slots = List.replicate slots.length .pristine := by
  refine List.ext_getElem (List.length_replicate).symm fun v hv _ => ?_
  have hslot := h v
  rw [slotAt, List.getElem?_eq_getElem hv, Option.getD_some] at hslot
  rw [hslot, List.getElem_replicate]

/-- The reset undoes the relaxation. -/
lemma resetSlots_relaxFrom {slots : List BfSlot} (h : ∀ v, slotAt slots v = .pristine)
    (adj : List (List WeightedEdge)) (rounds : ℕ) (source : TokenIndex) :
    resetSlots (relaxFrom adj rounds source slots).slots (relaxFrom adj rounds source slots).touched =
      slots := by
  have hrelaxed : Relaxed adj slots.length _ _ := relaxed_relaxFrom h rounds source
  have hpristine : ∀ v, slotAt (resetSlots (relaxFrom adj rounds source slots).slots
      (relaxFrom adj rounds source slots).touched) v = .pristine := by
    intro v
    rw [slotAt_resetSlots]
    split_ifs with hv
    · rfl
    · exact hrelaxed.pristine v hv
  rw [eq_replicate_of_slotAt hpristine, length_resetSlots, hrelaxed.length,
    ← eq_replicate_of_slotAt h]

lemma slots_collect (h : run.scratch.Pristine) :
    (collectNegativeCyclesFromSource env source run).slots = run.slots := by
  rw [collectNegativeCyclesFromSource]
  split_ifs
  · rfl
  · exact resetSlots_relaxFrom h.slotAt env.adj env.hops source

lemma emits_collect (hadj : EdgesLeave env.adj) (h : run.scratch.Pristine) :
    env.Emits run.toExtractState (collectNegativeCyclesFromSource env source run).toExtractState := by
  rw [collectNegativeCyclesFromSource]
  split_ifs
  · exact fun c hc => .inl hc
  · have hrelaxed : Relaxed env.adj run.slots.length _ _ :=
      relaxed_relaxFrom h.slotAt env.hops source
    refine forLoop_inv (env.Emits run.toExtractState) _ run.toExtractState ?_ fun _ hc => .inl hc
    exact fun u _ x hx => hx.trans (BfEnv.extractNode_emits hadj hrelaxed x u)

/-- Searches on the same slots stay alike, whatever their marks are. -/
lemma alike_collect (hslots : run.slots = run'.slots)
    (h : Alike run.slots.length run.toExtractState run'.toExtractState) :
    Alike run.slots.length (collectNegativeCyclesFromSource env source run).toExtractState
      (collectNegativeCyclesFromSource env source run').toExtractState := by
  rw [collectNegativeCyclesFromSource, collectNegativeCyclesFromSource, ← hslots]
  split_ifs
  · exact h
  · exact (forLoop_rel (Alike run.slots.length) _ _ _
      (fun u _ _ _ => BfEnv.alike_extractNode u) h).state

lemma Alike.refl {n : ℕ} {x : ExtractState} (h : MarksOk n x.marks) : Alike n x x :=
  ⟨rfl, rfl, rfl, h, h⟩

lemma pristine_collect (h : run.scratch.Pristine) :
    (collectNegativeCyclesFromSource env source run).scratch.Pristine := by
  have hslots : (collectNegativeCyclesFromSource env source run).slots = run.slots := slots_collect h
  refine ⟨?_, ?_⟩
  · rw [BfRun.scratch, hslots]
    exact h.slots
  · rw [BfRun.scratch, hslots]
    exact (alike_collect rfl (.refl h.marks)).marks

/-- A search emits closed simple cycles that pay, and leaves the scratch pristine: whatever search
comes next finds the same cycles as it would have on the scratch before. -/
theorem collectNegativeCycles_emits (hadj : EdgesLeave env.adj) (h : run.scratch.Pristine) :
    (∀ c ∈ (collectNegativeCyclesFromSource env source run).cycles,
      c ∈ run.cycles ∨ env.Emitted c) ∧
    (collectNegativeCyclesFromSource env source run).scratch.Pristine ∧
    ∀ (next : BfEnv) (source' : TokenIndex),
      (collectNegativeCyclesFromSource next source'
        (collectNegativeCyclesFromSource env source run)).cycles =
      (collectNegativeCyclesFromSource next source'
        { collectNegativeCyclesFromSource env source run with
          slots := run.slots
          marks := run.marks }).cycles := by
  have hslots : (collectNegativeCyclesFromSource env source run).slots = run.slots := slots_collect h
  refine ⟨emits_collect hadj h, pristine_collect h, fun next source' => ?_⟩
  refine Alike.cycles (alike_collect hslots ?_)
  refine ⟨rfl, rfl, rfl, (pristine_collect h).marks, ?_⟩
  rw [hslots]
  exact h.marks

end Collect

/-! ## All passes -/

/-- The scratch of a thread: an empty one at first, then what its searches leave behind. -/
inductive ThreadBfScratch : BfScratch → Prop
  | empty : ThreadBfScratch ⟨[], [], 0⟩
  | search {adj : List (List WeightedEdge)} {answers : ℕ → Bool} {passes : List CycleSearchPass}
      {scratch : BfScratch} (before : ThreadBfScratch scratch) :
      ThreadBfScratch (findCyclesBellmanFordMultiPassWithAdj adj answers passes scratch).2

section Passes

variable {adj : List (List WeightedEdge)} {answers : ℕ → Bool} {passes : List CycleSearchPass}
  {pass : CycleSearchPass} {scratch : BfScratch} {run run₀ : BfRun}

lemma mem_resizeTo {α : Type} {xs : List α} {n : ℕ} {x y : α} (h : y ∈ resizeTo xs n x) :
    y ∈ xs ∨ y = x := by
  rcases List.mem_append.mp h with hold | hnew
  · exact .inl (List.mem_of_mem_take hold)
  · exact .inr (List.eq_of_mem_replicate hnew)

lemma length_resizeTo {α : Type} (xs : List α) (n : ℕ) (x : α) : (resizeTo xs n x).length = n := by
  rw [resizeTo, List.length_append, List.length_take, List.length_replicate]
  omega

lemma BfScratch.Pristine.prepare (h : scratch.Pristine) (tokenCount : ℕ) :
    (scratch.prepare tokenCount).Pristine := by
  rw [BfScratch.prepare]
  split_ifs with hgrow
  · refine ⟨fun slot hslot => ?_, ⟨?_, fun g hg => ?_, h.marks.lt⟩⟩
    · rcases mem_resizeTo hslot with hold | hnew
      · exact h.slots slot hold
      · exact hnew
    · rw [length_resizeTo, length_resizeTo]
    · rcases mem_resizeTo hg with hold | rfl
      · exact h.marks.le g hold
      · exact Nat.zero_le _
  · refine ⟨fun slot hslot => ?_, ⟨?_, h.marks.le, h.marks.lt⟩⟩
    · rcases List.mem_append.mp hslot with hnew | hold
      · exact List.eq_of_mem_replicate hnew
      · exact h.slots slot (List.mem_of_mem_drop hold)
    · rw [List.length_append, List.length_replicate, List.length_drop, h.marks.length]
      omega

/-- What the passes keep: the scratch is pristine and every cycle is one some pass may emit. -/
structure PassesOk (adj : List (List WeightedEdge)) (answers : ℕ → Bool)
    (passes : List CycleSearchPass) (run : BfRun) : Prop where
  pristine : run.scratch.Pristine
  emitted : EdgesLeave adj → ∀ c ∈ run.cycles, ∃ pass ∈ passes,
    BfEnv.Emitted ⟨adj, pass.maxHops, pass.maxCycles, answers⟩ c

lemma PassesOk.tick (h : PassesOk adj answers passes run) :
    PassesOk adj answers passes { run with toExtractState := run.tick } :=
  ⟨h.pristine, h.emitted⟩

lemma passesOk_searchSource (hpass : pass ∈ passes) (source : TokenIndex)
    (h : PassesOk adj answers passes run) :
    PassesOk adj answers passes (searchSource adj answers pass run source).state := by
  rw [searchSource]
  split
  · rename_i run' hover
    rw [show run' = _ from (congrArg Prod.snd hover).symm]
    exact h.tick
  · rename_i run' hover
    rw [show run' = _ from (congrArg Prod.snd hover).symm]
    refine ⟨pristine_collect h.tick.pristine, fun hadj c hc => ?_⟩
    rcases emits_collect hadj h.tick.pristine c hc with hold | hnew
    · exact h.emitted hadj c hold
    · exact ⟨pass, hpass, hnew⟩

lemma passesOk_searchPass (hpass : pass ∈ passes) (sources : List TokenIndex)
    (h : PassesOk adj answers passes run) :
    PassesOk adj answers passes (searchPass adj answers sources run pass).state := by
  have hsources : PassesOk adj answers passes
      (forLoop (searchSource adj answers pass) sources run).state :=
    forLoop_inv (PassesOk adj answers passes) sources run
      (fun source _ _ hrun => passesOk_searchSource hpass source hrun) h
  rw [searchPass]
  split
  · rename_i run' hover
    rw [show run' = _ from (congrArg Prod.snd hover).symm]
    exact hsources.tick
  · rename_i run' hover
    rw [show run' = _ from (congrArg Prod.snd hover).symm]
    exact hsources.tick

lemma findCyclesBellmanFord_ok (h : scratch.Pristine) :
    (findCyclesBellmanFordMultiPassWithAdj adj answers passes scratch).2.Pristine ∧
      (EdgesLeave adj → ∀ c ∈ (findCyclesBellmanFordMultiPassWithAdj adj answers passes scratch).1,
        ∃ pass ∈ passes, BfEnv.Emitted ⟨adj, pass.maxHops, pass.maxCycles, answers⟩ c) := by
  rw [findCyclesBellmanFordMultiPassWithAdj]
  split_ifs
  · exact ⟨h, fun _ c hc => absurd hc List.not_mem_nil⟩
  · generalize (prioritizeCycleStartTokensFromOutDegrees (adj.map List.length)).take
      bellmanFordMaxSources = sources
    have hok : PassesOk adj answers passes (forLoop (searchPass adj answers sources) passes
        ⟨⟨(scratch.prepare adj.length).marks, [], [], 0⟩, (scratch.prepare adj.length).slots⟩).state :=
      forLoop_inv (PassesOk adj answers passes) passes _
        (fun pass hpass _ hrun => passesOk_searchPass hpass sources hrun)
        ⟨h.prepare adj.length, fun _ c hc => absurd hc List.not_mem_nil⟩
    exact ⟨hok.pristine, hok.emitted⟩

lemma ThreadBfScratch.pristine (h : ThreadBfScratch scratch) : scratch.Pristine := by
  induction h with
  | empty => exact ⟨by simp, ⟨rfl, by simp, by norm_num⟩⟩
  | search _ ih => exact (findCyclesBellmanFord_ok ih).1

/-- Every cycle of a multi-pass search is one that some pass may emit, on any scratch of the thread. -/
theorem findCyclesBellmanFord_emits (hadj : EdgesLeave adj) (h : ThreadBfScratch scratch) :
    ∀ c ∈ (findCyclesBellmanFordMultiPassWithAdj adj answers passes scratch).1,
      ∃ pass ∈ passes, BfEnv.Emitted ⟨adj, pass.maxHops, pass.maxCycles, answers⟩ c :=
  (findCyclesBellmanFord_ok h.pristine).2 hadj

end Passes

/-! ### Two pools that pay -/

/-- Two pools between two tokens, of which the way back pays ten percent. -/
def twoPoolBf : BfEnv where
  adj := buildWeightedAdjacency (twoPoolGraph 1100000000000000000#256 none)
  maxHops := 2
  maxCycles := 8
  answers := fun _ => false

def emptyRun : BfRun := ⟨⟨⟨[0, 0], 0⟩, [], [], 0⟩, [.pristine, .pristine]⟩

theorem collectNegativeCycles_emits_twoPool :
    (collectNegativeCyclesFromSource twoPoolBf 1 emptyRun).cycles.length = 1 ∧
      ∀ c ∈ (collectNegativeCyclesFromSource twoPoolBf 1 emptyRun).cycles, twoPoolBf.Emitted c := by
  have hgraph : EdgesWellFormed 2 (twoPoolGraph 1100000000000000000#256 none).edgesAt :=
    ⟨by decide, by decide, by decide⟩
  have hpristine : emptyRun.scratch.Pristine :=
    ⟨by simp [emptyRun, BfRun.scratch], ⟨rfl, by simp [emptyRun, BfRun.scratch], by decide⟩⟩
  have hadj : EdgesLeave twoPoolBf.adj := edgesLeave_buildWeightedAdjacency hgraph
  refine ⟨by decide, fun c hc => ?_⟩
  exact ((collectNegativeCycles_emits hadj hpristine).1 c hc).resolve_left List.not_mem_nil

end PolygonArb

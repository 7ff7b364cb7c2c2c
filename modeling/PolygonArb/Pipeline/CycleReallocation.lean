import PolygonArb.Pipeline.CycleDfsReplay
import PolygonArb.Pipeline.CycleSelect

/-!
# Reallocating the quota of sparse starts

`collect_cycles_dfs_parallel` of `pipeline/cycle_finder.rs`.  Every start token gets an equal share of the
cycles to find.  What sparse starts leave over goes to the starts that used their share up: up to twice, those
are searched again with a larger quota, and what a search finds takes the place of what the one before it found.

The searches run beside each other and share a deadline and a cap, which the reallocation sets back to zero.
Here these are answers that a search gets, whatever they are.  A search that gets the answers of the one before
it finds the same cycles and more (`collectCyclesDfsSingleStart_replay`), so nothing is lost; one that the
deadline stops early finds less, and what it does not find again is gone (`collectCyclesDfsParallel_loses`).
-/

namespace PolygonArb

open Word Loop

/-- The arguments of a parallel search, and what it is answered. -/
structure ParallelSearch where
  graph : RoutingGraph
  arena : StateArena
  poolMetas : ℕ → Option PoolMeta
  prep : ActiveGraph
  hopLimit : ℕ
  maxCycles : ℕ
  order : DrainOrder
  /-- Whether the deadline has passed, each time the reallocation itself asks. -/
  ticks : ℕ → Bool
  /-- The answers of the deadline and of the shared cap to the search of a shard in a pass. -/
  answers : ℕ → ℕ → ℕ → Bool
  /-- The scratch of the thread that runs the search of a shard in a pass. -/
  scratch : ℕ → ℕ → DfsScratch
  thread : ∀ pass i, ThreadScratch (scratch pass i)

/-- What is known of a start token: its quota and the cycles of its last search. -/
structure Shard where
  start : TokenIndex
  cap : ℕ
  cycles : List FoundCycle

def Shard.saturated (shard : Shard) : Bool := shard.cap ≤ shard.cycles.length

structure Reallocation where
  shards : List Shard
  merged : List FoundCycle

def usizeDivCeil (a b : ℕ) : ℕ := (a + b - 1) / b

namespace ParallelSearch

variable (e : ParallelSearch)

/-- The search of the shard `i` in a pass. -/
def searchEnv (pass i : ℕ) (start : TokenIndex) (cap : ℕ) : DfsEnv where
  graph := e.graph
  arena := e.arena
  poolMetas := e.poolMetas
  prep := e.prep
  start := start
  hopLimit := e.hopLimit
  maxCycles := cap
  answers := e.answers pass i

def searchShard (pass i : ℕ) (start : TokenIndex) (cap : ℕ) : Run (List FoundCycle) :=
  (collectCyclesDfsSingleStart (e.searchEnv pass i start cap) (e.scratch pass i)).map Prod.fst

def perShard : ℕ := max (usizeDivCeil e.maxCycles e.prep.startTokens.length) 1

/-- The first pass: every start with an equal quota. -/
def firstPass : Run (List Shard) :=
  e.prep.startTokens.zipIdx.mapM fun (start, i) =>
    (e.searchShard 0 i start e.perShard).map fun cycles => ⟨start, e.perShard, cycles⟩

def mergeShardCycles (shards : List Shard) : List FoundCycle :=
  dedupeCyclesByEdges e.order (shards.flatMap Shard.cycles)

def merge (shards : List Shard) : Reallocation := ⟨shards, e.mergeShardCycles shards⟩

/-- The capacity that is left, for every saturated shard. -/
def extra (st : Reallocation) : ℕ :=
  usizeDivCeil (e.maxCycles - st.merged.length) (st.shards.countP Shard.saturated)

/-- A saturated shard is searched from scratch with a larger quota. -/
def retryShard (pass extra : ℕ) : Shard × ℕ → Run Shard
  | (shard, i) =>
      if shard.saturated then
        let cap := min (shard.cap + extra) e.maxCycles
        (e.searchShard pass i shard.start cap).map fun cycles => ⟨shard.start, cap, cycles⟩
      else some shard

/-- One round of the reallocation.  It leaves off when there is no room, no time, no shard to search again, or
when nothing new came of it. -/
def retryRound (st : Reallocation) (pass : ℕ) : Run (LoopStep Reallocation) :=
  if e.maxCycles ≤ st.merged.length ∨ e.ticks (pass + 1) = true then some (.break st)
  else if st.shards.any Shard.saturated = false then some (.break st)
  else do
    let shards ← st.shards.zipIdx.mapM (e.retryShard pass (e.extra st))
    let next := e.merge shards
    some (if next.merged.length = st.merged.length then .break next else .continue next)

/-- What is found before the list is cut to `maxCycles`. -/
def reallocate : Run Reallocation := do
  let shards ← e.firstPass
  if shards.any Shard.saturated = false ∨ e.ticks 1 = true then some (e.merge shards)
  else tryForLoop e.retryRound [1, 2] (e.merge shards)

def collectCyclesDfsParallel : Run (List FoundCycle) :=
  if e.prep.startTokens = [] ∨ e.maxCycles = 0 ∨ e.ticks 0 = true then some []
  else e.reallocate.map fun last => last.merged.take e.maxCycles

/-! ## Runs -/

/-- A state a round can begin in; the round `pass` begins when `pass - 1` has ended. -/
inductive Reached : ℕ → Reallocation → Prop
  | first {shards : List Shard} (hmax : e.maxCycles ≠ 0) (run : e.firstPass = some shards) :
      Reached 1 (e.merge shards)
  | round {pass : ℕ} {st st' : Reallocation} (before : Reached pass st)
      (run : e.retryRound st pass = some (.continue st')) : Reached (pass + 1) st'

/-- In a round every saturated shard gets the answers of the pass before, for as long as that one asked. -/
def Replays (pass : ℕ) (st : Reallocation) : Prop :=
  ∀ i shard, st.shards[i]? = some shard → shard.saturated = true → ∀ asked,
    (e.searchEnv (pass - 1) i shard.start shard.cap).questionsAsked (e.scratch (pass - 1) i) = some asked →
      ∀ k < asked, e.answers pass i k = e.answers (pass - 1) i k

end ParallelSearch

/-- Every cycle of one list is in the other, by its edges. -/
def Retains (merged merged' : List FoundCycle) : Prop :=
  ∀ c ∈ merged, ∃ c' ∈ merged', c'.edges = c.edges

lemma Retains.refl (merged : List FoundCycle) : Retains merged merged := fun c hc => ⟨c, hc, rfl⟩

lemma Retains.trans {a b c : List FoundCycle} (h : Retains a b) (h' : Retains b c) : Retains a c := by
  intro x hx
  rcases h x hx with ⟨y, hy, hyx⟩
  rcases h' y hy with ⟨z, hz, hzy⟩
  exact ⟨z, hz, hzy.trans hyx⟩

/-! ## Rounds -/

namespace ParallelSearch

variable {e : ParallelSearch} {pass i : ℕ} {st st' : Reallocation} {r : LoopStep Reallocation}
  {shard shard' : Shard}

/-- What is merged stays merged when every shard keeps its cycles. -/
lemma retains_mergeShardCycles {shards shards' : List Shard}
    (h : ∀ shard ∈ shards, ∃ shard' ∈ shards', shard.cycles ⊆ shard'.cycles) :
    Retains (e.mergeShardCycles shards) (e.mergeShardCycles shards') := by
  intro c hc
  rcases List.mem_flatMap.mp (mem_dedupeCyclesByEdges hc) with ⟨shard, hshard, hmem⟩
  rcases h shard hshard with ⟨shard', hshard', hsub⟩
  exact exists_mem_dedupeCyclesByEdges (List.mem_flatMap.mpr ⟨shard', hshard', hsub hmem⟩)

/-- A round that does not leave off at once searches again and merges. -/
lemma retryRound_cases (h : e.retryRound st pass = some r) :
    r = .break st ∨ ∃ shards, st.shards.zipIdx.mapM (e.retryShard pass (e.extra st)) = some shards ∧
      r.state = e.merge shards := by
  rw [retryRound] at h
  by_cases hroom : e.maxCycles ≤ st.merged.length ∨ e.ticks (pass + 1) = true
  · rw [if_pos hroom] at h
    exact .inl (Option.some.inj h).symm
  rw [if_neg hroom] at h
  by_cases hnone : st.shards.any Shard.saturated = false
  · rw [if_pos hnone] at h
    exact .inl (Option.some.inj h).symm
  rw [if_neg hnone] at h
  rcases Option.bind_eq_some_iff.mp h with ⟨shards, hshards, hr⟩
  refine .inr ⟨shards, hshards, ?_⟩
  obtain rfl := Option.some.inj hr
  split_ifs
  · rfl
  · rfl

lemma retryShard_cases {extra : ℕ} (h : e.retryShard pass extra (shard, i) = some shard') :
    (shard.saturated = true ∧ shard'.start = shard.start ∧
      shard'.cap = min (shard.cap + extra) e.maxCycles ∧
        e.searchShard pass i shard'.start shard'.cap = some shard'.cycles) ∨
      (shard.saturated = false ∧ shard' = shard) := by
  rw [retryShard] at h
  by_cases hsaturated : shard.saturated = true
  · rw [if_pos hsaturated] at h
    rcases Option.map_eq_some_iff.mp h with ⟨cycles, hcycles, rfl⟩
    exact .inl ⟨hsaturated, rfl, rfl, hcycles⟩
  · rw [if_neg hsaturated] at h
    exact .inr ⟨Bool.eq_false_of_not_eq_true hsaturated, (Option.some.inj h).symm⟩

/-- What is merged is what the shards have, and a saturated shard has what its search in the pass before a round
found. -/
structure Searched (e : ParallelSearch) (pass : ℕ) (st : Reallocation) : Prop where
  merged : st.merged = e.mergeShardCycles st.shards
  cap_le : ∀ shard ∈ st.shards, shard.cap ≤ e.maxCycles
  search : ∀ i shard, st.shards[i]? = some shard → shard.saturated = true →
    e.searchShard (pass - 1) i shard.start shard.cap = some shard.cycles

lemma getElem?_zipIdx_mapM {f : Shard × ℕ → Run Shard} {shards shards' : List Shard}
    (h : shards.zipIdx.mapM f = some shards') (i : ℕ) :
    shards'[i]? = shards[i]?.bind fun shard => f (shard, i) := by
  rw [getElem?_mapM h, List.getElem?_zipIdx, Nat.zero_add]
  cases shards[i]? with
  | none => rfl
  | some shard => rfl

lemma usizeDivCeil_le {a : ℕ} (ha : a ≠ 0) (b : ℕ) : usizeDivCeil a b ≤ a := by
  cases b with
  | zero => exact (Nat.div_zero _).trans_le (Nat.zero_le _)
  | succ b =>
      refine Nat.div_le_of_le_mul ?_
      have hgrow : b ≤ b * a := Nat.le_mul_of_pos_right b (Nat.pos_of_ne_zero ha)
      rw [Nat.succ_mul]
      omega

lemma perShard_le (hmax : e.maxCycles ≠ 0) : e.perShard ≤ e.maxCycles :=
  max_le (usizeDivCeil_le hmax _) (Nat.one_le_iff_ne_zero.mpr hmax)

lemma searched_first {shards : List Shard} (hmax : e.maxCycles ≠ 0) (run : e.firstPass = some shards) :
    e.Searched 1 (e.merge shards) := by
  have hshard : ∀ i shard, shards[i]? = some shard →
      shard.cap = e.perShard ∧ e.searchShard 0 i shard.start shard.cap = some shard.cycles := by
    intro i shard hi
    rw [getElem?_mapM run, List.getElem?_zipIdx, Nat.zero_add] at hi
    rcases Option.bind_eq_some_iff.mp hi with ⟨⟨start, j⟩, hstart, hrun⟩
    rcases Option.map_eq_some_iff.mp hstart with ⟨start', -, hpair⟩
    obtain ⟨rfl, rfl⟩ := Prod.mk.inj hpair
    rcases Option.map_eq_some_iff.mp hrun with ⟨cycles, hcycles, rfl⟩
    exact ⟨rfl, hcycles⟩
  refine ⟨rfl, fun shard hmem => ?_, fun i shard hi _ => (hshard i shard hi).2⟩
  rcases List.getElem?_of_mem hmem with ⟨i, hi⟩
  rw [(hshard i shard hi).1]
  exact perShard_le hmax

/-- After a round a saturated shard is one that was searched in it. -/
lemma Searched.round (h : e.Searched pass st) (hrun : e.retryRound st pass = some (.continue st')) :
    e.Searched (pass + 1) st' := by
  rcases retryRound_cases hrun with hbreak | ⟨shards, hshards, hst⟩
  · cases hbreak
  obtain rfl : st' = e.merge shards := hst
  have hshard : ∀ i shard', shards[i]? = some shard' →
      ∃ shard, st.shards[i]? = some shard ∧ e.retryShard pass (e.extra st) (shard, i) = some shard' := by
    intro i shard' hi
    rw [getElem?_zipIdx_mapM hshards] at hi
    exact Option.bind_eq_some_iff.mp hi
  refine ⟨rfl, fun shard' hmem => ?_, fun i shard' hi hsaturated => ?_⟩
  · rcases List.getElem?_of_mem hmem with ⟨i, hi⟩
    rcases hshard i shard' hi with ⟨shard, hold, hretry⟩
    rcases retryShard_cases hretry with ⟨-, -, hcap, -⟩ | ⟨-, rfl⟩
    · rw [hcap]
      exact min_le_right _ _
    · exact h.cap_le _ (List.mem_of_getElem? hold)
  · rcases hshard i shard' hi with ⟨shard, hold, hretry⟩
    rcases retryShard_cases hretry with ⟨-, -, -, hsearch⟩ | ⟨hnot, rfl⟩
    · exact hsearch
    · rw [hnot] at hsaturated
      cases hsaturated

lemma Reached.searched (h : e.Reached pass st) : e.Searched pass st := by
  induction h with
  | first hmax run => exact searched_first hmax run
  | round _ run ih => exact ih.round run

/-- A search with the answers of the one before it finds that one's cycles again. -/
lemma searchShard_replay {pass' start cap cap' : ℕ} {cycles cycles' : List FoundCycle} (hcap : cap ≤ cap')
    (h : e.searchShard pass' i start cap = some cycles)
    (h' : e.searchShard pass i start cap' = some cycles')
    (hagree : ∀ asked, (e.searchEnv pass' i start cap).questionsAsked (e.scratch pass' i) = some asked →
      ∀ k < asked, e.answers pass i k = e.answers pass' i k) : cycles <+: cycles' := by
  rcases Option.map_eq_some_iff.mp h with ⟨⟨_, out⟩, hrun, rfl⟩
  rcases Option.map_eq_some_iff.mp h' with ⟨⟨_, out'⟩, hrun', rfl⟩
  rcases Option.map_eq_some_iff.mp hrun with ⟨t, ht, -⟩
  have hasked : (e.searchEnv pass' i start cap).questionsAsked (e.scratch pass' i) = some t.asked :=
    Option.map_eq_some_iff.mpr ⟨t, ht, rfl⟩
  have hquota : (e.searchEnv pass' i start cap).maxCycles ≤ cap' := hcap
  exact collectCyclesDfsSingleStart_replay hquota (e.thread _ _) (e.thread _ _) hrun hrun' hasked
    (hagree t.asked hasked)

/-- A round whose searches get the answers of the pass before loses nothing. -/
lemma Searched.retains (h : e.Searched pass st) (hreplays : e.Replays pass st)
    (hrun : e.retryRound st pass = some r) : Retains st.merged r.state.merged := by
  rcases retryRound_cases hrun with rfl | ⟨shards, hshards, hst⟩
  · exact .refl _
  rw [h.merged, hst]
  refine retains_mergeShardCycles fun shard hmem => ?_
  rcases List.getElem?_of_mem hmem with ⟨i, hi⟩
  have hlen := (mapM_eq_some.mp hshards).length_eq
  have hlt : i < shards.length := by
    rw [← hlen, List.length_zipIdx]
    exact (List.getElem?_eq_some_iff.mp hi).1
  have hnew := getElem?_zipIdx_mapM hshards i
  rw [hi, List.getElem?_eq_getElem hlt, Option.bind_some] at hnew
  refine ⟨shards[i], List.getElem_mem hlt, ?_⟩
  rcases retryShard_cases hnew.symm with ⟨hsaturated, hstart, hcap, hsearch⟩ | ⟨-, hsame⟩
  · rw [hstart, hcap] at hsearch
    have hcap_le : shard.cap ≤ min (shard.cap + e.extra st) e.maxCycles :=
      le_min (Nat.le_add_right _ _) (h.cap_le shard hmem)
    exact (searchShard_replay hcap_le (h.search i shard hi hsaturated) hsearch
      (hreplays i shard hi hsaturated)).subset
  · rw [hsame]
    exact fun c hc => hc

/-- The rounds from a state on lose nothing when every round is one that replays. -/
lemma Reached.retains {last : Reallocation}
    (hreplays : ∀ pass ≤ 2, ∀ st, e.Reached pass st → e.Replays pass st) :
    ∀ (n pass : ℕ) {st : Reallocation}, pass + n ≤ 3 → e.Reached pass st →
      tryForLoop e.retryRound (List.range' pass n) st = some last → Retains st.merged last.merged
  | 0, _, st, _, _, hrun => by
      cases hrun
      exact .refl _
  | n + 1, pass, st, hle, hst, hrun => by
      rw [List.range'_succ, tryForLoop] at hrun
      cases hround : e.retryRound st pass with
      | none =>
          rw [hround] at hrun
          cases hrun
      | some r =>
          rw [hround] at hrun
          have hkeeps := hst.searched.retains (hreplays pass (by omega) st hst) hround
          cases r with
          | «continue» st' =>
              exact hkeeps.trans (Reached.retains hreplays n (pass + 1) (by omega) (.round hst hround) hrun)
          | «break» st' =>
              cases hrun
              exact hkeeps

/-- What is merged at the end is what the shards have. -/
lemma merged_of_reallocate {last : Reallocation} (h : e.reallocate = some last) :
    last.merged = e.mergeShardCycles last.shards := by
  rcases Option.bind_eq_some_iff.mp h with ⟨shards, -, hlast⟩
  split_ifs at hlast
  · cases hlast
    rfl
  · refine tryForLoop_inv (fun st => st.merged = e.mergeShardCycles st.shards) _ _ _ ?_ rfl hlast
    intro pass _ st r hst hr
    rcases retryRound_cases hr with rfl | ⟨shards, -, hnext⟩
    · exact hst
    · rw [hnext]
      rfl

end ParallelSearch

open ParallelSearch

/-- In every round that begins in a reached state and whose searches get the answers of the pass before, every
cycle merged before it is merged after it; over a run of such rounds every cycle of the first pass is in the list
that is cut to `maxCycles`.  What is returned has at most `maxCycles` cycles and no edge list twice. -/
theorem collectCyclesDfsParallel_retains (e : ParallelSearch) :
    (∀ pass st r, e.Reached pass st → e.Replays pass st → e.retryRound st pass = some r →
      Retains st.merged r.state.merged) ∧
    (∀ shards last, e.maxCycles ≠ 0 → e.firstPass = some shards → e.reallocate = some last →
      (∀ pass ≤ 2, ∀ st, e.Reached pass st → e.Replays pass st) →
        Retains (e.merge shards).merged last.merged) ∧
    (∀ cycles, e.collectCyclesDfsParallel = some cycles →
      cycles.length ≤ e.maxCycles ∧ (cycles.map FoundCycle.edges).Nodup) := by
  refine ⟨fun pass st r hst hreplays hrun => hst.searched.retains hreplays hrun, ?_, ?_⟩
  · intro shards last hmax hfirst hlast hreplays
    rw [reallocate, hfirst, Option.bind_eq_bind, Option.bind_some] at hlast
    split_ifs at hlast
    · cases hlast
      exact .refl _
    · exact Reached.retains hreplays 2 1 le_rfl (.first hmax hfirst) hlast
  · intro cycles hrun
    rw [collectCyclesDfsParallel] at hrun
    split_ifs at hrun
    · cases hrun
      exact ⟨Nat.zero_le _, List.nodup_nil⟩
    · rcases Option.map_eq_some_iff.mp hrun with ⟨last, hlast, rfl⟩
      refine ⟨List.length_take_le _ _, ?_⟩
      rw [merged_of_reallocate hlast, List.map_take]
      exact (nodup_dedupeCyclesByEdges _).sublist (List.take_sublist _ _)

/-! ### A start that pays and one that leads nowhere -/

/-- Two pools that pay between two tokens, and a third token without edges. -/
def retryGraph : RoutingGraph :=
  { twoPoolGraph 1100000000000000000#256 none with
    adjacency := [[directEdge 0 0 1 one18], [directEdge 1 1 0 1100000000000000000#256], []]
    tokenCount := 3 }

/-- Two cycles are looked for from two starts.  In the first pass the first start finds its one; what the passes
after it are answered is left open, and the deadline passes after the first retry has begun. -/
def retrySearch (later : ℕ → Bool) : ParallelSearch where
  graph := retryGraph
  arena := hubArena
  poolMetas := hubMetas
  prep := { wholeGraph retryGraph none with startTokens := [0, 2] }
  hopLimit := 2
  maxCycles := 2
  order := ⟨id, perm_id⟩
  ticks := fun n => 2 < n
  answers
    | 0, _ => fun n => n == 4
    | _ + 1, _ => later
  scratch := fun _ _ => ⟨[], [], []⟩
  thread := fun _ _ => .empty

lemma retrySearch_firstPass (later : ℕ → Bool) :
    ∃ c, (retrySearch later).firstPass = some [⟨0, 1, [c]⟩, ⟨2, 1, []⟩] := by
  have hnone : (retrySearch fun _ => true).firstPass.map (List.map fun shard =>
      (shard.start, shard.cap, shard.cycles.length)) = some [(0, 1, 1), (2, 1, 0)] := by
    decide
  change ∃ c, (retrySearch fun _ => true).firstPass = some [⟨0, 1, [c]⟩, ⟨2, 1, []⟩]
  rcases Option.map_eq_some_iff.mp hnone with ⟨shards, hshards, hmap⟩
  rw [hshards]
  match shards, hmap with
  | [⟨_, _, [c]⟩, ⟨_, _, []⟩], rfl => exact ⟨c, rfl⟩

lemma retrySearch_cut : (retrySearch fun _ => true).searchShard 1 0 0 2 = some [] := by
  have hnone : ((retrySearch fun _ => true).searchShard 1 0 0 2).map List.length = some 0 := by
    decide
  rcases Option.map_eq_some_iff.mp hnone with ⟨cycles, hcycles, hlen⟩
  rw [hcycles, List.length_eq_zero_iff.mp hlen]

lemma mergeShardCycles_retrySearch (later : ℕ → Bool) (c : FoundCycle) (cap : ℕ) :
    (retrySearch later).mergeShardCycles [⟨0, cap, [c]⟩, ⟨2, 1, []⟩] = [c] :=
  List.perm_singleton.mp (List.mergeSort_perm _ _)

/-- The first retry searches the first start for two cycles. -/
lemma retryRound_retrySearch {later : ℕ → Bool} {c : FoundCycle} {cycles : List FoundCycle}
    (h : (retrySearch later).searchShard 1 0 0 2 = some cycles) :
    (retrySearch later).retryRound ((retrySearch later).merge [⟨0, 1, [c]⟩, ⟨2, 1, []⟩]) 1 =
      some (if ((retrySearch later).mergeShardCycles [⟨0, 2, cycles⟩, ⟨2, 1, []⟩]).length = 1 then
        .break ((retrySearch later).merge [⟨0, 2, cycles⟩, ⟨2, 1, []⟩])
      else .continue ((retrySearch later).merge [⟨0, 2, cycles⟩, ⟨2, 1, []⟩])) := by
  have hlen : ((retrySearch later).merge [⟨0, 1, [c]⟩, ⟨2, 1, []⟩]).merged.length = 1 :=
    congrArg List.length (mergeShardCycles_retrySearch later c 1)
  have hextra : (retrySearch later).extra ((retrySearch later).merge [⟨0, 1, [c]⟩, ⟨2, 1, []⟩]) = 1 := by
    rw [extra, hlen]
    simp [merge, retrySearch, Shard.saturated, usizeDivCeil]
  have hshards : ([⟨0, 1, [c]⟩, ⟨2, 1, []⟩] : List Shard).zipIdx.mapM
      ((retrySearch later).retryShard 1 1) = some [⟨0, 2, cycles⟩, ⟨2, 1, []⟩] := by
    rw [mapM_eq_some]
    refine .cons ?_ (.cons rfl .nil)
    change ((retrySearch later).searchShard 1 0 0 2).map (fun cycles => (⟨0, 2, cycles⟩ : Shard)) = _
    rw [h]
    rfl
  rw [retryRound, hextra, if_neg, if_neg]
  · change (([⟨0, 1, [c]⟩, ⟨2, 1, []⟩] : List Shard).zipIdx.mapM
      ((retrySearch later).retryShard 1 1) >>= _) = _
    rw [hshards, Option.bind_eq_bind, Option.bind_some, hlen]
    rfl
  · simp [merge, Shard.saturated]
  · rw [hlen]
    simp [retrySearch]

/-- A retry that gets the answers of the first pass. -/
theorem collectCyclesDfsParallel_retains_retry :
    ∃ st r, (retrySearch fun n => n == 4).Reached 1 st ∧
      (retrySearch fun n => n == 4).retryRound st 1 = some r ∧ st.merged.length = 1 ∧
        Retains st.merged r.state.merged := by
  rcases retrySearch_firstPass fun n => n == 4 with ⟨c, hfirst⟩
  have hsome : ((retrySearch fun n => n == 4).searchShard 1 0 0 2).isSome = true := by decide
  rcases Option.isSome_iff_exists.mp hsome with ⟨cycles, hcycles⟩
  have hmax : (retrySearch fun n => n == 4).maxCycles ≠ 0 := by decide
  have hreached := Reached.first hmax hfirst
  have hround := retryRound_retrySearch (c := c) hcycles
  refine ⟨_, _, hreached, hround, ?_, ?_⟩
  · rw [merge, mergeShardCycles_retrySearch]
    rfl
  · exact (collectCyclesDfsParallel_retains _).1 1 _ _ hreached (fun _ _ _ _ _ _ _ _ => rfl) hround

/-- The deadline passes while the one saturated start is searched again: the cycle of the first pass is lost. -/
theorem collectCyclesDfsParallel_loses :
    (∃ st r, (retrySearch fun _ => true).Reached 1 st ∧
      (retrySearch fun _ => true).retryRound st 1 = some r ∧ st.merged.length = 1 ∧
        ¬ Retains st.merged r.state.merged) ∧
    (retrySearch fun _ => true).collectCyclesDfsParallel = some [] := by
  rcases retrySearch_firstPass fun _ => true with ⟨c, hfirst⟩
  have hround := retryRound_retrySearch (c := c) retrySearch_cut
  have hempty : (retrySearch fun _ => true).mergeShardCycles [⟨0, 2, []⟩, ⟨2, 1, []⟩] = [] :=
    List.perm_nil.mp (List.mergeSort_perm _ _)
  rw [hempty, if_neg (by decide)] at hround
  refine ⟨⟨_, _, .first (by decide) hfirst, hround, ?_, ?_⟩, ?_⟩
  · rw [merge, mergeShardCycles_retrySearch]
    rfl
  · intro hretains
    rw [merge, mergeShardCycles_retrySearch] at hretains
    rcases hretains c List.mem_cons_self with ⟨c', hc', -⟩
    rw [LoopStep.state_continue, merge, hempty] at hc'
    cases hc'
  · have hlast : (retrySearch fun _ => true).reallocate =
        some ((retrySearch fun _ => true).merge [⟨0, 2, []⟩, ⟨2, 1, []⟩]) := by
      have hgo : ¬ (([⟨0, 1, [c]⟩, ⟨2, 1, []⟩] : List Shard).any Shard.saturated = false ∨
          (retrySearch fun _ => true).ticks 1 = true) := by
        simp [retrySearch, Shard.saturated]
      have hpassed : (retrySearch fun _ => true).ticks (2 + 1) = true := rfl
      rw [reallocate, hfirst, Option.bind_eq_bind, Option.bind_some, if_neg hgo, tryForLoop, hround]
      dsimp only
      rw [tryForLoop, retryRound, if_pos (Or.inr hpassed)]
    rw [collectCyclesDfsParallel, if_neg (by decide), hlast, Option.map_some, merge, hempty]
    rfl

end PolygonArb

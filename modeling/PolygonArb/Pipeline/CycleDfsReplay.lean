import PolygonArb.Pipeline.CycleDfsInvariant

/-!
# Searching once more with a larger quota

The search of one start token beside a second run of it, which has a quota of its own and gets answers of its
own from the deadline and the shared cap.  As long as the answers are the same the two runs do the same, up to
the point where the first has its quota; from there on the first records nothing more, and the second can only
add (`DfsEnv.Follows`).  So the cycles of a search that had its quota are a prefix of what the second finds
(`collectCyclesDfsSingleStart_replay`).

The scratch does not matter: all flags are clear when a search begins, however many there are.
-/

namespace PolygonArb

open Word Loop DfsState

/-! ## Two runs side by side -/

/-- The same state but for the number of clear flags at the end. -/
structure DfsState.Same (slots : ℕ) (s s' : DfsState) : Prop where
  path : s'.path = s.path
  cycles : s'.cycles = s.cycles
  seen : s'.seen = s.seen
  asked : s'.asked = s.asked
  pools : ∀ i, isMarked s'.usedPools i = isMarked s.usedPools i
  tokens : ∀ i, isMarked s'.usedTokens i = isMarked s.usedTokens i
  room : slots ≤ s.usedTokens.length
  room' : slots ≤ s'.usedTokens.length

namespace DfsState

variable {slots : ℕ} {s s' t : DfsState} {pool : PoolIndex} {token : TokenIndex}

lemma Same.tick (h : s.Same slots s') : s.tick.Same slots s'.tick :=
  ⟨h.path, h.cycles, h.seen, congrArg (· + 1) h.asked, h.pools, h.tokens, h.room, h.room'⟩

lemma Same.push (h : s.Same slots s') (edge : Edge) : (s.push edge).Same slots (s'.push edge) :=
  ⟨congrArg (· ++ [edge]) h.path, h.cycles, h.seen, h.asked, h.pools, h.tokens, h.room, h.room'⟩

lemma Same.pop (h : s.Same slots s') : s.pop.Same slots s'.pop :=
  ⟨congrArg List.dropLast h.path, h.cycles, h.seen, h.asked, h.pools, h.tokens, h.room, h.room'⟩

lemma Same.unmarkPool (h : s.Same slots s') (pool : PoolIndex) :
    (s.unmarkPool pool).Same slots (s'.unmarkPool pool) := by
  refine ⟨h.path, h.cycles, h.seen, h.asked, fun i => ?_, h.tokens, h.room, h.room'⟩
  rw [DfsState.unmarkPool, DfsState.unmarkPool, isMarked_poolUnmark, isMarked_poolUnmark, h.pools i]

lemma Same.setToken (h : s.Same slots s') (htoken : token < slots) (flag : Bool) :
    (s.setToken token flag).Same slots (s'.setToken token flag) := by
  refine ⟨h.path, h.cycles, h.seen, h.asked, h.pools, fun i => ?_, ?_, ?_⟩
  · rw [DfsState.setToken, DfsState.setToken, isMarked_set (htoken.trans_le h.room),
      isMarked_set (htoken.trans_le h.room'), h.tokens i]
  · exact h.room.trans_eq List.length_set.symm
  · exact h.room'.trans_eq List.length_set.symm

lemma poolMark_eq_none {used : List Bool} : poolMark used pool = none ↔ isMarked used pool = true := by
  rw [poolMark, isMarked_append_replicate]
  split_ifs with h <;> simp [h]

/-- A pool is marked in both or in neither. -/
lemma Same.markPool (h : s.Same slots s') (pool : PoolIndex) :
    (s.markPool pool = none ∧ s'.markPool pool = none) ∨
      ∃ t t', s.markPool pool = some t ∧ s'.markPool pool = some t' ∧ t.Same slots t' := by
  cases hused : poolMark s.usedPools pool with
  | none =>
      have hmarked := poolMark_eq_none.mp hused
      rw [← h.pools pool, ← poolMark_eq_none] at hmarked
      exact .inl ⟨by rw [DfsState.markPool, hused]; rfl, by rw [DfsState.markPool, hmarked]; rfl⟩
  | some used =>
      cases hused' : poolMark s'.usedPools pool with
      | none =>
          have hmarked := poolMark_eq_none.mp hused'
          rw [h.pools pool, ← poolMark_eq_none, hused] at hmarked
          cases hmarked
      | some used' =>
          refine .inr ⟨{ s with usedPools := used }, { s' with usedPools := used' },
            by rw [DfsState.markPool, hused]; rfl, by rw [DfsState.markPool, hused']; rfl, ?_⟩
          refine ⟨h.path, h.cycles, h.seen, h.asked, fun i => ?_, h.tokens, h.room, h.room'⟩
          rw [(poolMark_eq_some hused).2.2 i, (poolMark_eq_some hused').2.2 i, h.pools i]

end DfsState

namespace DfsEnv

/-- The search with another quota and other answers. -/
def rerun (env : DfsEnv) (cap : ℕ) (answers : ℕ → Bool) : DfsEnv :=
  { env with maxCycles := cap, answers := answers }

/-- The quota of the first run is full, and the second run has its cycles. -/
def Ahead (env : DfsEnv) (s s' : DfsState) : Prop :=
  env.maxCycles ≤ s.cycles.length ∧ s.cycles <+: s'.cycles

/-- The second run is where the first is, or the first has its quota. -/
def Follows (env : DfsEnv) (s s' : DfsState) : Prop :=
  s.Same env.graph.tokenCount s' ∨ env.Ahead s s'

/-- The answers are those that the first run got up to a state. -/
def AnswersAgree (env : DfsEnv) (answers : ℕ → Bool) (s : DfsState) : Prop :=
  ∀ k < s.asked, answers k = env.answers k

/-- The recursive calls of two runs. -/
def Tracks (env : DfsEnv) (answers : ℕ → Bool) (visit visit' : DfsCall → DfsState → Run DfsState) :
    Prop :=
  ∀ call s s' t t', s.Same env.graph.tokenCount s' → visit call s = some t → visit' call s' = some t' →
    env.AnswersAgree answers t → env.Follows t t'

section Replay

variable {env : DfsEnv} {cap : ℕ} {answers : ℕ → Bool} {s s' t t' : DfsState}
  {visit visit' : DfsCall → DfsState → Run DfsState} {call next : DfsCall} {edge : Edge}
  {pending : PendingHubSwap} {ge : GraphEdge}

lemma AnswersAgree.mono (h : env.AnswersAgree answers t) (hgrows : s.Grows t) :
    env.AnswersAgree answers s :=
  fun k hk => h k (hk.trans_le hgrows.asked)

/-- Whether the search stops at a state. -/
def stops (env : DfsEnv) (s : DfsState) : Bool :=
  env.answers s.asked || decide (env.maxCycles ≤ s.cycles.length)

lemma shouldStop_eq (s : DfsState) : env.shouldStop s = (env.stops s, s.tick) := rfl

lemma stops_of_full (h : env.maxCycles ≤ s.cycles.length) : env.stops s = true := by
  rw [stops, decide_eq_true h, Bool.or_true]

/-- Below the quota both runs stop or neither does. -/
lemma stops_rerun (hcap : env.maxCycles ≤ cap) (hsame : s.Same env.graph.tokenCount s')
    (hagree : env.AnswersAgree answers s.tick) (h : ¬ env.maxCycles ≤ s.cycles.length) :
    (env.rerun cap answers).stops s' = env.stops s := by
  have hcap' : ¬ cap ≤ s.cycles.length := fun hle => h (hcap.trans hle)
  change (answers s'.asked || decide (cap ≤ s'.cycles.length)) = _
  rw [stops, hsame.asked, hsame.cycles, hagree s.asked (Nat.lt_succ_self _), decide_eq_false h,
    decide_eq_false hcap']

/-- What the second run does from a full state on, it adds. -/
lemma ahead_of_full (hsame : s.Same env.graph.tokenCount s') (h : env.maxCycles ≤ s.cycles.length)
    (hleft : t.cycles = s.cycles) (hright : s'.Grows t') : env.Ahead t t' := by
  rw [Ahead, hleft, ← hsame.cycles]
  exact ⟨hsame.cycles ▸ h, hright.cycles⟩

lemma Ahead.grows (h : env.Ahead s s') (hgrows : s'.Grows t') : env.Ahead s t' :=
  ⟨h.1, h.2.trans hgrows.cycles⟩

lemma Follows.pop (h : env.Follows t t') : env.Follows t.pop t'.pop := h.imp Same.pop id

lemma Follows.unmarkPool (h : env.Follows t t') (pool : PoolIndex) :
    env.Follows (t.unmarkPool pool) (t'.unmarkPool pool) :=
  h.imp (·.unmarkPool pool) id

lemma Follows.setToken (h : env.Follows t t') {token : TokenIndex} (htoken : token < env.graph.tokenCount)
    (flag : Bool) : env.Follows (t.setToken token flag) (t'.setToken token flag) :=
  h.imp (·.setToken htoken flag) id

lemma descend_tracks (hvisit : env.Tracks answers visit visit') (hsame : s.Same env.graph.tokenCount s')
    (h : descend visit edge next s = some t) (h' : descend visit' edge next s' = some t')
    (hagree : env.AnswersAgree answers t) : env.Follows t t' := by
  rcases Option.map_eq_some_iff.mp h with ⟨u, hu, rfl⟩
  rcases Option.map_eq_some_iff.mp h' with ⟨u', hu', rfl⟩
  exact (hvisit next _ _ u u' (hsame.push edge) hu hu' hagree).pop

lemma claim_tracks {score : Float} (hsame : s.Same env.graph.tokenCount s')
    (hagree : env.AnswersAgree answers (env.claim call score s)) :
    (env.claim call score s).Same env.graph.tokenCount ((env.rerun cap answers).claim call score s') := by
  have hanswer : (env.rerun cap answers).answers s'.asked = env.answers s.asked := by
    rw [hsame.asked]
    refine hagree s.asked ?_
    rw [claim, ask]
    dsimp only
    split_ifs
    · exact Nat.lt_succ_self _
    · exact Nat.lt_succ_self _
  rw [claim, claim, ask, ask]
  dsimp only
  rw [hanswer]
  split_ifs
  · have htick := hsame.tick
    refine ⟨htick.path, ?_, ?_, htick.asked, htick.pools, htick.tokens, htick.room, htick.room'⟩
    · change s'.cycles ++ [env.foundCycle call score s'.path] =
        s.cycles ++ [env.foundCycle call score s.path]
      rw [hsame.cycles, hsame.path]
    · change s'.path :: s'.seen = s.path :: s.seen
      rw [hsame.path, hsame.seen]
  · exact hsame.tick

lemma ask_rerun (hsame : s.Same env.graph.tokenCount s') (hagree : env.AnswersAgree answers s.tick) :
    (env.rerun cap answers).ask s' = (env.answers s.asked, s'.tick) := by
  rw [← hagree s.asked (Nat.lt_succ_self _), ← hsame.asked]
  rfl

/-- The two runs take the same branch. -/
lemma ite_tracks {c : Prop} [Decidable c] {slots : ℕ} {u u' : DfsState}
    (hagree : env.AnswersAgree answers (if c then t else u))
    (hthen : env.AnswersAgree answers t → t.Same slots t')
    (helse : env.AnswersAgree answers u → u.Same slots u') :
    (if c then t else u).Same slots (if c then t' else u') := by
  split_ifs at hagree ⊢
  · exact hthen hagree
  · exact helse hagree

/-- A question about the reserve, if it is asked, and the claim after it. -/
lemma reserve_tracks {c : Prop} [Decidable c] {score : Float} (hsame : s.Same env.graph.tokenCount s')
    (hagree : env.AnswersAgree answers
      (match if c then env.ask s else (false, s) with
        | (past, s) => if past then s else env.claim call score s)) :
    DfsState.Same env.graph.tokenCount
      (match if c then env.ask s else (false, s) with
        | (past, s) => if past then s else env.claim call score s)
      (match if c then (env.rerun cap answers).ask s' else (false, s') with
        | (past, s) => if past then s else (env.rerun cap answers).claim call score s) := by
  by_cases hc : c
  · rw [if_pos hc] at hagree
    rw [if_pos hc, if_pos hc]
    have htick : env.AnswersAgree answers s.tick := by
      refine hagree.mono ?_
      change s.tick.Grows (if env.answers s.asked = true then s.tick else env.claim call score s.tick)
      by_cases hpast : env.answers s.asked = true
      · rw [if_pos hpast]
        exact .refl
      · rw [if_neg hpast]
        rw [claim]
        dsimp only
        split_ifs
        · exact ⟨List.prefix_append _ _, Nat.le_succ _⟩
        · exact grows_tick
    rw [ask_rerun hsame htick]
    exact ite_tracks hagree (fun _ => hsame.tick) (claim_tracks hsame.tick)
  · rw [if_neg hc] at hagree
    rw [if_neg hc, if_neg hc]
    exact claim_tracks hsame hagree

lemma closeCycle_tracks (hsame : s.Same env.graph.tokenCount s')
    (hagree : env.AnswersAgree answers (env.closeCycle call s)) :
    (env.closeCycle call s).Same env.graph.tokenCount ((env.rerun cap answers).closeCycle call s') := by
  rw [closeCycle] at hagree ⊢
  rw [closeCycle, hsame.path, hsame.seen]
  refine ite_tracks hagree (fun _ => hsame) fun hagree => ?_
  refine ite_tracks hagree (fun _ => hsame) fun hagree => ?_
  refine ite_tracks hagree (fun _ => hsame) fun hagree => ?_
  refine ite_tracks hagree (fun _ => hsame) fun hagree => ?_
  exact reserve_tracks hsame hagree

lemma takeLeg_tracks (hvisit : env.Tracks answers visit visit') {pool : PoolMeta} {state : PoolState}
    {leg : ℕ} (hsame : s.Same env.graph.tokenCount s')
    (h : env.takeLeg visit call pending pool state leg s = some t)
    (h' : (env.rerun cap answers).takeLeg visit' call pending pool state leg s' = some t')
    (hagree : env.AnswersAgree answers t) : env.Follows t t' := by
  change env.takeLeg visit' call pending pool state leg s' = some t' at h'
  rw [takeLeg] at h h'
  cases htoken : routingTokenAtLeg env.arena state pool leg with
  | none =>
      rw [htoken] at h h'
      cases h
      cases h'
      exact .inl hsame
  | some tokenOut =>
      rw [htoken] at h h'
      rcases Option.bind_eq_some_iff.mp h with ⟨swap, hswap, hrest⟩
      rcases Option.bind_eq_some_iff.mp h' with ⟨swap', hswap', hrest'⟩
      obtain rfl := Option.some.inj (hswap.symm.trans hswap')
      cases swap with
      | none =>
          cases hrest
          cases hrest'
          exact .inl hsame
      | some swap =>
          dsimp only at hrest hrest'
          split_ifs at hrest hrest'
          · cases hrest
            cases hrest'
            exact .inl hsame
          · cases hrest
            cases hrest'
            exact .inl hsame
          · exact descend_tracks hvisit hsame hrest hrest' hagree

/-- A full first run leaves at the next leg, or passes over it. -/
lemma exitLeg_full {pool : PoolMeta} {state : PoolState} {leg : ℕ} {r : LoopStep DfsState}
    (hfull : env.maxCycles ≤ s.cycles.length)
    (h : env.exitLeg visit call pending pool state s leg = some r) : r.state.cycles = s.cycles := by
  rw [exitLeg, shouldStop_eq, stops_of_full hfull] at h
  split_ifs at h
  · cases h
    rfl
  · cases h
    rfl

lemma exitLeg_tracks (hcap : env.maxCycles ≤ cap) (hkept : env.Visits visit)
    (hkept' : (env.rerun cap answers).Visits visit')
    (hvisit : env.Tracks answers visit visit') {pool : PoolMeta} {state : PoolState} {leg : ℕ}
    {r r' : LoopStep DfsState} (hsame : s.Same env.graph.tokenCount s')
    (h : env.exitLeg visit call pending pool state s leg = some r)
    (h' : (env.rerun cap answers).exitLeg visit' call pending pool state s' leg = some r')
    (hagree : env.AnswersAgree answers r.state) :
    LoopStep.Sim (DfsState.Same env.graph.tokenCount) env.Ahead r r' := by
  by_cases hfull : env.maxCycles ≤ s.cycles.length
  · exact .apart (ahead_of_full hsame hfull (exitLeg_full hfull h) (exitLeg_kept hkept' h').grows)
  rw [exitLeg] at h h'
  by_cases hleg : leg = pending.tokenInIdx
  · rw [if_pos hleg] at h h'
    cases h
    cases h'
    exact .continue hsame
  rw [if_neg hleg, shouldStop_eq] at h h'
  cases hstop : env.stops s with
  | true =>
      rw [hstop] at h
      cases h
      rw [stops_rerun hcap hsame hagree hfull, hstop] at h'
      cases h'
      exact .break hsame.tick
  | false =>
      rw [hstop] at h
      rcases Option.map_eq_some_iff.mp h with ⟨u, hu, rfl⟩
      rw [stops_rerun hcap hsame (hagree.mono (takeLeg_kept hkept hu).grows) hfull, hstop] at h'
      rcases Option.map_eq_some_iff.mp h' with ⟨u', hu', rfl⟩
      rcases takeLeg_tracks hvisit hsame.tick hu hu' hagree with hnext | hnext
      · exact .continue hnext
      · exact .apart hnext

/-- The legs of a hub, one after another. -/
lemma legs_tracks (hcap : env.maxCycles ≤ cap) (hkept : env.Visits visit)
    (hkept' : (env.rerun cap answers).Visits visit')
    (hvisit : env.Tracks answers visit visit') {pool : PoolMeta} {state : PoolState} {legs : List ℕ}
    (hsame : s.Same env.graph.tokenCount s')
    (h : tryForLoop (env.exitLeg visit call pending pool state) legs s = some t)
    (h' : tryForLoop ((env.rerun cap answers).exitLeg visit' call pending pool state) legs s' = some t')
    (hagree : env.AnswersAgree answers t) : env.Follows t t' := by
  refine tryForLoop_sim (R := DfsState.Same env.graph.tokenCount) (A := env.Ahead)
    (P := env.AnswersAgree answers) ?_ ?_ ?_ legs ?_ hsame h h' hagree
  · exact fun leg s r hr => (·.mono (exitLeg_kept hkept hr).grows)
  · intro leg s s' r hahead hr
    have hcycles := exitLeg_full hahead.1 hr
    exact ⟨hcycles ▸ hahead.1, hcycles ▸ hahead.2⟩
  · exact fun leg s s' r hahead hr => hahead.grows (exitLeg_kept hkept' hr).grows
  · exact fun leg _ s s' r r' hs hr hr' => exitLeg_tracks hcap hkept hkept' hvisit hs hr hr'

lemma visitHub_tracks (hcap : env.maxCycles ≤ cap) (hkept : env.Visits visit)
    (hkept' : (env.rerun cap answers).Visits visit')
    (hvisit : env.Tracks answers visit visit') (hsame : s.Same env.graph.tokenCount s')
    (h : env.visitHub visit call pending s = some t)
    (h' : (env.rerun cap answers).visitHub visit' call pending s' = some t')
    (hagree : env.AnswersAgree answers t) : env.Follows t t' := by
  rw [visitHub] at h h'
  rcases hsame.markPool pending.poolIndex with ⟨hmark, hmark'⟩ | ⟨u, u', hmark, hmark', hu⟩
  · rw [hmark] at h
    rw [hmark'] at h'
    cases h
    cases h'
    exact .inl hsame
  rw [hmark] at h
  rw [hmark'] at h'
  dsimp only [rerun] at h h'
  cases hpool : env.poolMetas pending.poolIndex with
  | none =>
      rw [hpool] at h h'
      cases h
      cases h'
      exact .inl (hu.unmarkPool _)
  | some pool =>
      cases hstate : env.arena.poolState pending.poolIndex with
      | none =>
          rw [hpool, hstate] at h h'
          cases h
          cases h'
          exact .inl (hu.unmarkPool _)
      | some state =>
          rw [hpool, hstate] at h h'
          rcases Option.map_eq_some_iff.mp h with ⟨v, hv, rfl⟩
          rcases Option.map_eq_some_iff.mp h' with ⟨v', hv', rfl⟩
          exact (legs_tracks hcap hkept hkept' hvisit hu hv hv' hagree).unmarkPool _

lemma takeDirect_tracks (hvisit : env.Tracks answers visit visit')
    (hsame : s.Same env.graph.tokenCount s') (h : env.takeDirect visit call ge s = some t)
    (h' : (env.rerun cap answers).takeDirect visit' call ge s' = some t')
    (hagree : env.AnswersAgree answers t) : env.Follows t t' := by
  change env.takeDirect visit' call ge s' = some t' at h'
  rw [takeDirect] at h h'
  by_cases hratio : ge.ratio = 0
  · rw [if_pos hratio] at h h'
    cases h
    cases h'
    exact .inl hsame
  rw [if_neg hratio] at h h'
  rcases hsame.markPool ge.edge.poolIndex with ⟨hmark, hmark'⟩ | ⟨u, u', hmark, hmark', hu⟩
  · rw [hmark] at h
    rw [hmark'] at h'
    cases h
    cases h'
    exact .inl hsame
  rw [hmark] at h
  rw [hmark'] at h'
  dsimp only at h h'
  split_ifs at h h'
  · cases h
    cases h'
    exact .inl (hu.unmarkPool _)
  · cases h
    cases h'
    exact .inl (hu.unmarkPool _)
  · rcases Option.map_eq_some_iff.mp h with ⟨v, hv, rfl⟩
    rcases Option.map_eq_some_iff.mp h' with ⟨v', hv', rfl⟩
    exact (descend_tracks hvisit hu hv hv' hagree).unmarkPool _

lemma edgeStep_full {skip : Bool} {enter direct : DfsState → Run DfsState} {phase : GraphHopPhase}
    {r : LoopStep DfsState} (hfull : env.maxCycles ≤ s.cycles.length)
    (h : env.edgeStep skip enter direct phase s = some r) : r.state.cycles = s.cycles := by
  rw [edgeStep, shouldStop_eq, stops_of_full hfull] at h
  cases h
  rfl

/-- Where two states are related two loops go on side by side, or have parted. -/
lemma sim_continue (h : env.Follows t t') :
    LoopStep.Sim (DfsState.Same env.graph.tokenCount) env.Ahead (.continue t) (.continue t') := by
  rcases h with h | h
  · exact .continue h
  · exact .apart h

/-- One edge in both runs, from what happens below it. -/
lemma edgeStep_tracks (hcap : env.maxCycles ≤ cap) {skip : Bool} {enter direct : DfsState → Run DfsState}
    {enter' direct' : DfsState → Run DfsState} {phase : GraphHopPhase} {r r' : LoopStep DfsState}
    (henter : ∀ u u', enter s.tick = some u → enter' s'.tick = some u' → env.AnswersAgree answers u →
      env.Follows u u')
    (hdirect : ∀ u u', direct s.tick = some u → direct' s'.tick = some u' → env.AnswersAgree answers u →
      env.Follows u u')
    (hgrows : s.tick.Grows r.state) (hgrows' : s'.tick.Grows r'.state)
    (hsame : s.Same env.graph.tokenCount s') (h : env.edgeStep skip enter direct phase s = some r)
    (h' : (env.rerun cap answers).edgeStep skip enter' direct' phase s' = some r')
    (hagree : env.AnswersAgree answers r.state) :
    LoopStep.Sim (DfsState.Same env.graph.tokenCount) env.Ahead r r' := by
  by_cases hfull : env.maxCycles ≤ s.cycles.length
  · exact .apart (ahead_of_full hsame hfull (edgeStep_full hfull h) (grows_tick.trans hgrows'))
  have hstops := stops_rerun hcap hsame (hagree.mono hgrows) hfull
  rw [edgeStep, shouldStop_eq] at h h'
  rw [hstops] at h'
  cases hstop : env.stops s with
  | true =>
      rw [hstop] at h h'
      cases h
      cases h'
      exact .break hsame.tick
  | false =>
      rw [hstop] at h h'
      dsimp only at h h'
      cases skip with
      | true =>
          cases h
          cases h'
          exact .continue hsame.tick
      | false =>
          rw [if_neg Bool.false_ne_true] at h h'
          cases phase with
          | enterPool =>
              rcases Option.map_eq_some_iff.mp h with ⟨u, hu, rfl⟩
              rcases Option.map_eq_some_iff.mp h' with ⟨u', hu', rfl⟩
              exact sim_continue (henter u u' hu hu' hagree)
          | direct =>
              rcases Option.map_eq_some_iff.mp h with ⟨u, hu, rfl⟩
              rcases Option.map_eq_some_iff.mp h' with ⟨u', hu', rfl⟩
              exact sim_continue (hdirect u u' hu hu' hagree)
          | exitPool =>
              cases h
              cases h'
              exact .continue hsame.tick

lemma takeEdge_tracks (hcap : env.maxCycles ≤ cap) (hkept : env.Visits visit)
    (hkept' : (env.rerun cap answers).Visits visit')
    (hvisit : env.Tracks answers visit visit') {r r' : LoopStep DfsState}
    (hsame : s.Same env.graph.tokenCount s') (h : env.takeEdge visit call s ge = some r)
    (h' : (env.rerun cap answers).takeEdge visit' call s' ge = some r')
    (hagree : env.AnswersAgree answers r.state) :
    LoopStep.Sim (DfsState.Same env.graph.tokenCount) env.Ahead r r' :=
  edgeStep_tracks hcap (fun u u' hu hu' => hvisit _ _ _ u u' hsame.tick hu hu')
    (fun _ _ hu hu' => takeDirect_tracks hvisit hsame.tick hu hu') (takeEdge_kept hkept h).grows
    (takeEdge_kept hkept' h').grows hsame (takeEdge_eq ▸ h) (takeEdge_eq ▸ h') hagree

/-- The edges of a token, one after another. -/
lemma expand_tracks (hcap : env.maxCycles ≤ cap) (hkept : env.Visits visit)
    (hkept' : (env.rerun cap answers).Visits visit')
    (hvisit : env.Tracks answers visit visit') (hnode : call.node < env.graph.tokenCount)
    (hsame : s.Same env.graph.tokenCount s') (h : env.expand visit call s = some t)
    (h' : (env.rerun cap answers).expand visit' call s' = some t')
    (hagree : env.AnswersAgree answers t) : env.Follows t t' := by
  rcases Option.map_eq_some_iff.mp h with ⟨u, hu, rfl⟩
  rcases Option.map_eq_some_iff.mp h' with ⟨u', hu', rfl⟩
  refine Follows.setToken ?_ hnode false
  refine tryForLoop_sim (R := DfsState.Same env.graph.tokenCount) (A := env.Ahead)
    (P := env.AnswersAgree answers) ?_ ?_ ?_ _ ?_ (hsame.setToken hnode true) hu hu' hagree
  · exact fun ge s r hr => (·.mono (grows_tick.trans (takeEdge_kept hkept hr).grows))
  · intro ge s s' r hahead hr
    have hcycles := edgeStep_full hahead.1 (takeEdge_eq ▸ hr)
    exact ⟨hcycles ▸ hahead.1, hcycles ▸ hahead.2⟩
  · exact fun ge s s' r hahead hr => hahead.grows (grows_tick.trans (takeEdge_kept hkept' hr).grows)
  · exact fun ge _ s s' r r' hs hr hr' => takeEdge_tracks hcap hkept hkept' hvisit hs hr hr'

lemma visitToken_tracks (hcap : env.maxCycles ≤ cap) (hkept : env.Visits visit)
    (hkept' : (env.rerun cap answers).Visits visit')
    (hvisit : env.Tracks answers visit visit') (hnode : call.node < env.graph.tokenCount)
    (hsame : s.Same env.graph.tokenCount s') (h : env.visitToken visit call s = some t)
    (h' : (env.rerun cap answers).visitToken visit' call s' = some t')
    (hagree : env.AnswersAgree answers t) : env.Follows t t' := by
  have hroom : ¬ s.usedTokens.length ≤ call.node := not_le.mpr (hnode.trans_le hsame.room)
  have hroom' : ¬ s'.usedTokens.length ≤ call.node := not_le.mpr (hnode.trans_le hsame.room')
  rw [visitToken, if_neg hroom] at h
  rw [visitToken, if_neg hroom', hsame.tokens] at h'
  -- the branches are those of the first run, on the quota and the answers depends only what is called
  change (if 2 ≤ call.hops ∧ call.node = env.start then
      some ((env.rerun cap answers).closeCycle call s')
    else if isMarked s.usedTokens call.node = true ∨ env.hopCap ≤ call.hops then some s'
    else if (!canStillFindProfitableCycle call.logW call.productRatio call.hops env.hopCap call.node
      env.prep call.pinTouched) = true then some s'
    else if env.prep.edgesAt call.node = [] then some s'
    else (env.rerun cap answers).expand visit' call s') = some t' at h'
  by_cases hclose : 2 ≤ call.hops ∧ call.node = env.start
  · rw [if_pos hclose] at h h'
    cases h
    cases h'
    exact .inl (closeCycle_tracks hsame hagree)
  rw [if_neg hclose] at h h'
  split_ifs at h h'
  · cases h
    cases h'
    exact .inl hsame
  · cases h
    cases h'
    exact .inl hsame
  · cases h
    cases h'
    exact .inl hsame
  · exact expand_tracks hcap hkept hkept' hvisit hnode hsame h h' hagree

lemma dfsBody_tracks (hcap : env.maxCycles ≤ cap) (hkept : env.Visits visit)
    (hkept' : (env.rerun cap answers).Visits visit')
    (hvisit : env.Tracks answers visit visit') :
    env.Tracks answers (env.dfsBody visit) ((env.rerun cap answers).dfsBody visit') := by
  intro call s s' t t' hsame h h' hagree
  by_cases hfull : env.maxCycles ≤ s.cycles.length
  · have hgrow' : s'.Grows t' := grows_tick.trans (dfsBody_kept hkept' h').grows
    rw [dfsBody, shouldStop_eq, stops_of_full hfull] at h
    cases h
    exact .inr (ahead_of_full hsame hfull rfl hgrow')
  have hstops := stops_rerun hcap hsame (hagree.mono (dfsBody_kept hkept h).grows) hfull
  rw [dfsBody, shouldStop_eq] at h h'
  rw [hstops] at h'
  cases hstop : env.stops s with
  | true =>
      rw [hstop] at h h'
      cases h
      cases h'
      exact .inl hsame.tick
  | false =>
      rw [hstop] at h h'
      dsimp only at h h'
      by_cases hvirtual : env.graph.isVirtualNode call.node = true
      · rw [if_pos hvirtual] at h
        rw [if_pos (show (env.rerun cap answers).graph.isVirtualNode call.node = true from hvirtual)] at h'
        cases hpending : call.pending with
        | none =>
            rw [hpending] at h h'
            cases h
            cases h'
            exact .inl hsame.tick
        | some pending =>
            rw [hpending] at h h'
            exact visitHub_tracks hcap hkept hkept' hvisit hsame.tick h h' hagree
      · rw [if_neg hvirtual] at h
        rw [if_neg (show ¬ (env.rerun cap answers).graph.isVirtualNode call.node = true from hvirtual)] at h'
        rw [RoutingGraph.isVirtualNode, decide_eq_true_eq, not_le] at hvirtual
        exact visitToken_tracks hcap hkept hkept' hvisit hvirtual hsame.tick h h' hagree

lemma dfs_tracks (hcap : env.maxCycles ≤ cap) :
    ∀ fuel, env.Tracks answers (env.dfs fuel) ((env.rerun cap answers).dfs fuel)
  | 0 => by
      intro call s s' t t' hsame h h' _
      cases h
      cases h'
      exact .inl hsame
  | fuel + 1 => dfsBody_tracks hcap (dfs_kept fuel) (dfs_kept fuel) (dfs_tracks hcap fuel)

/-- The opening edge with the search below it as a parameter. -/
def openDirectBy (env : DfsEnv) (visit : DfsCall → DfsState → Run DfsState) (ge : GraphEdge)
    (s : DfsState) : Run DfsState :=
  if ge.ratio = 0 then some s
  else if (!canStillFindProfitableCycle ge.logWeight ge.ratio 1 env.hopCap ge.edge.tokenOut env.prep
      (env.prep.edgeIsPin ge.edge.poolIndex)) = true then some s
  else if routeHopBudgetExceeded (addCalls 0 (estimateHopCalls ge.edge.protocol)) = true then some s
  else
    match s.markPool ge.edge.poolIndex with
    | none => some s
    | some s =>
        (descend visit ge.edge (nextCall env.openCall ge.edge ge.targetNode ge.logWeight ge.ratio
          (env.prep.edgeIsPin ge.edge.poolIndex)) s).map (·.unmarkPool ge.edge.poolIndex)

lemma openDirect_tracks (hcap : env.maxCycles ≤ cap) (hsame : s.Same env.graph.tokenCount s')
    (h : env.openDirect ge s = some t) (h' : (env.rerun cap answers).openDirect ge s' = some t')
    (hagree : env.AnswersAgree answers t) : env.Follows t t' := by
  change env.openDirectBy (env.dfs env.dfsFuel) ge s = some t at h
  change env.openDirectBy ((env.rerun cap answers).dfs env.dfsFuel) ge s' = some t' at h'
  rw [openDirectBy] at h h'
  split_ifs at h h'
  · cases h
    cases h'
    exact .inl hsame
  · cases h
    cases h'
    exact .inl hsame
  · cases h
    cases h'
    exact .inl hsame
  rcases hsame.markPool ge.edge.poolIndex with ⟨hmark, hmark'⟩ | ⟨u, u', hmark, hmark', hu⟩
  · rw [hmark] at h
    rw [hmark'] at h'
    cases h
    cases h'
    exact .inl hsame
  rw [hmark] at h
  rw [hmark'] at h'
  rcases Option.map_eq_some_iff.mp h with ⟨v, hv, rfl⟩
  rcases Option.map_eq_some_iff.mp h' with ⟨v', hv', rfl⟩
  exact (descend_tracks (dfs_tracks hcap env.dfsFuel) hu hv hv' hagree).unmarkPool _

lemma openEdge_tracks (hcap : env.maxCycles ≤ cap) {pinOpen : Bool} {r r' : LoopStep DfsState}
    (hsame : s.Same env.graph.tokenCount s') (h : env.openEdge pinOpen s ge = some r)
    (h' : (env.rerun cap answers).openEdge pinOpen s' ge = some r')
    (hagree : env.AnswersAgree answers r.state) :
    LoopStep.Sim (DfsState.Same env.graph.tokenCount) env.Ahead r r' :=
  edgeStep_tracks hcap (fun u u' hu hu' => dfs_tracks hcap env.dfsFuel _ _ _ u u' hsame.tick hu hu')
    (fun _ _ hu hu' => openDirect_tracks hcap hsame.tick hu hu') (openEdge_kept h).grows
    (openEdge_kept h').grows hsame (openEdge_eq pinOpen ▸ h) (openEdge_eq pinOpen ▸ h') hagree

lemma searchFromStart_tracks (hcap : env.maxCycles ≤ cap) (hstart : env.start < env.graph.tokenCount)
    (hsame : s.Same env.graph.tokenCount s') (h : env.searchFromStart s = some t)
    (h' : (env.rerun cap answers).searchFromStart s' = some t')
    (hagree : env.AnswersAgree answers t) : env.Follows t t' := by
  have hout : s.usedTokens.length ≤ env.start ∨ env.prep.edgesAt env.start = [] ↔
      env.prep.edgesAt env.start = [] :=
    or_iff_right (not_le.mpr (hstart.trans_le hsame.room))
  have hout' : s'.usedTokens.length ≤ (env.rerun cap answers).start ∨
      (env.rerun cap answers).prep.edgesAt (env.rerun cap answers).start = [] ↔
      env.prep.edgesAt env.start = [] :=
    or_iff_right (not_le.mpr (hstart.trans_le hsame.room'))
  rw [searchFromStart] at h h'
  by_cases hedges : env.prep.edgesAt env.start = []
  · rw [if_pos (hout.mpr hedges)] at h
    rw [if_pos (hout'.mpr hedges)] at h'
    cases h
    cases h'
    exact .inl hsame
  rw [if_neg (mt hout.mp hedges)] at h
  rw [if_neg (mt hout'.mp hedges)] at h'
  rcases Option.map_eq_some_iff.mp h with ⟨u, hu, rfl⟩
  rcases Option.map_eq_some_iff.mp h' with ⟨u', hu', rfl⟩
  refine Follows.setToken ?_ hstart false
  refine tryForLoop_sim (R := DfsState.Same env.graph.tokenCount) (A := env.Ahead)
    (P := env.AnswersAgree answers) ?_ ?_ ?_ _ ?_ (hsame.setToken hstart true) hu hu' hagree
  · exact fun ge s r hr => (·.mono (grows_tick.trans (openEdge_kept hr).grows))
  · intro ge s s' r hahead hr
    have hcycles := edgeStep_full hahead.1 (openEdge_eq _ ▸ hr)
    exact ⟨hcycles ▸ hahead.1, hcycles ▸ hahead.2⟩
  · exact fun ge s s' r hahead hr => hahead.grows (grows_tick.trans (openEdge_kept hr).grows)
  · exact fun ge _ s s' r r' hs hr hr' => openEdge_tracks hcap hs hr hr'

end Replay

end DfsEnv

/-! ## The search of one start, once more -/

/-- The state a search begins in. -/
def DfsEnv.opening (env : DfsEnv) (scratch : DfsScratch) : DfsState :=
  { env.prepared scratch with cycles := [], seen := [], asked := 0 }

/-- How many questions a search asks. -/
def DfsEnv.questionsAsked (env : DfsEnv) (scratch : DfsScratch) : Run ℕ :=
  (env.searchFromStart (env.opening scratch)).map DfsState.asked

lemma tokenCount_le_prepared (env : DfsEnv) (scratch : DfsScratch) :
    env.graph.tokenCount ≤ (env.prepared scratch).usedTokens.length := by
  rw [DfsEnv.prepared, DfsScratch.prepare]
  dsimp only
  split_ifs with h
  · rw [List.length_append, List.length_replicate]
    omega
  · rw [clearUpTo, List.length_append, List.length_replicate]
    exact Nat.le_add_right _ _

lemma opening_same {env : DfsEnv} {scratch scratch' : DfsScratch} (h : scratch.Clear)
    (h' : scratch'.Clear) (cap : ℕ) (answers : ℕ → Bool) :
    (env.opening scratch).Same env.graph.tokenCount ((env.rerun cap answers).opening scratch') where
  path := rfl
  cycles := rfl
  seen := rfl
  asked := rfl
  pools i := ((h'.prepared env).usedPools i).trans ((h.prepared env).usedPools i).symm
  tokens i := ((h'.prepared env).usedTokens i).trans ((h.prepared env).usedTokens i).symm
  room := tokenCount_le_prepared env scratch
  room' := tokenCount_le_prepared env scratch'

/-- A search with a quota at least as large that gets the answers the first search got finds what that one
found, in the same order and before everything else. -/
theorem collectCyclesDfsSingleStart_replay {env : DfsEnv} {cap : ℕ} {answers : ℕ → Bool}
    {scratch scratch' out out' : DfsScratch} {cycles cycles' : List FoundCycle} {asked : ℕ}
    (hcap : env.maxCycles ≤ cap) (hscratch : ThreadScratch scratch) (hscratch' : ThreadScratch scratch')
    (h : collectCyclesDfsSingleStart env scratch = some (cycles, out))
    (h' : collectCyclesDfsSingleStart (env.rerun cap answers) scratch' = some (cycles', out'))
    (hasked : env.questionsAsked scratch = some asked) (hagree : ∀ k < asked, answers k = env.answers k) :
    cycles <+: cycles' := by
  rcases Option.map_eq_some_iff.mp h with ⟨t, ht, heq⟩
  rcases Option.map_eq_some_iff.mp h' with ⟨t', ht', heq'⟩
  rcases Option.map_eq_some_iff.mp hasked with ⟨u, hu, rfl⟩
  obtain rfl := Option.some.inj (ht.symm.trans hu)
  cases heq
  cases heq'
  by_cases hstart : env.start < env.graph.tokenCount
  · rcases DfsEnv.searchFromStart_tracks hcap hstart
      (opening_same hscratch.clear hscratch'.clear cap answers) ht ht' hagree with hsame | hahead
    · exact hsame.cycles ▸ List.prefix_rfl
    · exact hahead.2
  · -- at a start that is no token nothing is found
    have hkept := DfsEnv.searchFromStart_kept rfl ((hscratch.clear.prepared env).usedTokens env.start) ht
    rw [hkept.stray (not_lt.mp hstart)]
    exact List.nil_prefix

end PolygonArb

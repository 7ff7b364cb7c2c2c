import PolygonArb.Pipeline.NegativeCycleInvariant

/-!
# What the relaxation reaches

A token that was not visited has an infinite distance and the ratio `ONE`.  The distance test then
compares with `INF - INF`, which is not a number, and fails for every distance, so only the ratio test
can admit the first visit: the product of the ratios must be above `ONE` (`visited_after_iff`).  The
comment on the edges that are skipped says that ratios below `ONE` are kept, so that cycles with lossy
hops remain discoverable.

The relaxations of a run are listed with the states they are made in (`relaxationsFrom`), so a
condition on the run is one on the members of a list.  If none of them misses a token, the rounds
reach what the live edges reach: a visited token is relaxed in the next round, or its neighbours are
visited already (`Frontier`).
-/

namespace PolygonArb

open Word

/-! ## Comparing with what is not a number -/

lemma not_lt_of_isNaN {x y : Float} (h : y.isNaN = true) : ¬ x < y := by
  intro hlt
  change y.toModel.unpack.isNaN = true at h
  have hcompare : (x.toModel.unpack.compare y.toModel.unpack == some .lt) = true :=
    of_decide_eq_true hlt
  cases hy : y.toModel.unpack with
  | notANumber =>
      rw [hy] at hcompare
      cases hx : x.toModel.unpack <;> simp [hx, Float.Model.UnpackedFloat.compare] at hcompare
  | zero => simp [hy, Float.Model.UnpackedFloat.isNaN] at h
  | infinity => simp [hy, Float.Model.UnpackedFloat.isNaN] at h
  | finite => simp [hy, Float.Model.UnpackedFloat.isNaN] at h

/-- The distance test fails for a token without a distance. -/
lemma not_lt_pristine (newDist : Float) :
    ¬ newDist < BfSlot.pristine.dist - bfEps BfSlot.pristine.dist :=
  not_lt_of_isNaN (by decide)

/-! ## The relaxations of a run -/

/-- One relaxation: the token with what was read of it, the edge, and the state before. -/
structure Relaxation where
  token : TokenIndex
  dist : Float
  ratio : U256
  edge : WeightedEdge
  before : BfState

namespace Relaxation

variable (r : Relaxation)

def after : BfState := relaxEdge r.token r.dist r.ratio r.before r.edge

def target : TokenIndex := r.edge.edge.tokenOut

/-- The slot of the token the edge leads to. -/
def old : BfSlot := slotAt r.before.slots r.target

def newDist : Float := r.dist + r.edge.weight

def newRatio : U256 := mulRatioSaturating r.ratio r.edge.ratio

/-- The edge is not skipped. -/
def Live : Prop := r.target < r.before.slots.length ∧ r.edge.ratio ≠ 0

/-- One of the two tests holds. -/
def Improves : Prop := r.newDist < r.old.dist - bfEps r.old.dist ∨ r.old.distRatio < r.newRatio

/-- The distance that is written is infinite. -/
def Overflows : Prop := r.Live ∧ r.Improves ∧ r.newDist.isFinite = false

/-- The product of the ratios is above `ONE` at the token. -/
def OffersGain (v : TokenIndex) : Prop := r.Live ∧ r.target = v ∧ one18 < r.newRatio

/-- A live edge leads to a token without a distance, and the product does not exceed `ONE`. -/
def MissesToken : Prop := r.Live ∧ r.old.dist.isFinite = false ∧ r.newRatio ≤ one18

instance : Decidable r.Live := inferInstanceAs (Decidable (_ ∧ _))

instance : Decidable r.Improves := inferInstanceAs (Decidable (_ ∨ _))

instance : Decidable r.Overflows := inferInstanceAs (Decidable (_ ∧ _ ∧ _))

instance : Decidable r.MissesToken := inferInstanceAs (Decidable (_ ∧ _ ∧ _))

variable {r}

lemma after_of_improves (hlive : r.Live) (h : r.Improves) :
    r.after =
      { slots := r.before.slots.set r.target ⟨r.newDist, r.newRatio, some r.token, some r.edge, true⟩
        touched := if r.old.dist.isFinite then r.before.touched else r.before.touched ++ [r.target]
        nextActive :=
          if r.old.inNext then r.before.nextActive else r.before.nextActive ++ [r.target] } := by
  have hkept : ¬ (r.before.slots.length ≤ r.edge.edge.tokenOut ∨ r.edge.ratio = 0) := by
    rintro (hout | hdead)
    · exact absurd hlive.1 (not_lt.mpr hout)
    · exact hlive.2 hdead
  rw [after, relaxEdge]
  dsimp only
  rw [if_neg hkept]
  exact if_pos h

lemma after_of_not (h : ¬ (r.Live ∧ r.Improves)) : r.after = r.before := by
  rw [after, relaxEdge]
  dsimp only
  by_cases hskip : r.before.slots.length ≤ r.edge.edge.tokenOut ∨ r.edge.ratio = 0
  · exact if_pos hskip
  · rw [if_neg hskip]
    rw [not_or, not_le] at hskip
    exact if_neg fun himproves => h ⟨hskip, himproves⟩

end Relaxation

/-- The relaxations along the edges of one token. -/
def edgeRelaxations (u : TokenIndex) (uDist : Float) (uRatio : U256) :
    List WeightedEdge → BfState → List Relaxation
  | [], _ => []
  | we :: edges, s =>
      ⟨u, uDist, uRatio, we, s⟩ :: edgeRelaxations u uDist uRatio edges (relaxEdge u uDist uRatio s we)

section Runs

variable (adj : List (List WeightedEdge))

def nodeRelaxations : List ℕ → BfState → List Relaxation
  | [], _ => []
  | u :: active, s =>
      edgeRelaxations u (slotAt s.slots u).dist (slotAt s.slots u).distRatio (weightedEdgesAt adj u) s ++
        nodeRelaxations active (relaxNode adj s u)

/-- The state a round begins in. -/
def roundStart (active : List ℕ) (s : BfState) : BfState :=
  { s with
    slots := active.foldl clearInNext s.slots
    nextActive := [] }

def roundRelaxations : ℕ → List ℕ → BfState → List Relaxation
  | 0, _, _ => []
  | rounds + 1, active, s =>
      if active = [] then []
      else
        nodeRelaxations adj active (roundStart active s) ++
          roundRelaxations rounds (relaxRound adj active s).nextActive (relaxRound adj active s)

/-- The state the relaxation begins in. -/
def sourceState (source : TokenIndex) (slots : List BfSlot) : BfState :=
  { slots := slots.set source { slotAt slots source with dist := 0.0, distRatio := one18 }
    touched := [source]
    nextActive := [] }

/-- All relaxations of `relaxFrom`, in their order. -/
def relaxationsFrom (rounds : ℕ) (source : TokenIndex) (slots : List BfSlot) : List Relaxation :=
  roundRelaxations adj rounds [source] (sourceState source slots)

end Runs

/-- Relaxations that are made one after another. -/
inductive Relaxes : BfState → List Relaxation → BfState → Prop
  | nil {s : BfState} : Relaxes s [] s
  | relax {r : Relaxation} {rs : List Relaxation} {t : BfState} (h : Relaxes r.after rs t) :
      Relaxes r.before (r :: rs) t

namespace Relaxes

variable {s t t' : BfState} {rs rs' : List Relaxation} {r : Relaxation}

lemma append (h : Relaxes s rs t) (h' : Relaxes t rs' t') : Relaxes s (rs ++ rs') t' := by
  induction h with
  | nil => exact h'
  | relax _ ih => exact .relax (ih h')

/-- A relaxation of a run has a run before it and one after it. -/
lemma split (h : Relaxes s rs t) (hmem : r ∈ rs) :
    ∃ rs₁ rs₂, rs = rs₁ ++ r :: rs₂ ∧ Relaxes s rs₁ r.before ∧ Relaxes r.after rs₂ t := by
  induction h with
  | nil => cases hmem
  | @relax r' rs t h ih =>
      rcases List.mem_cons.mp hmem with rfl | hmem
      · exact ⟨[], rs, rfl, .nil, h⟩
      · rcases ih hmem with ⟨rs₁, rs₂, rfl, hbefore, hafter⟩
        exact ⟨r' :: rs₁, rs₂, rfl, .relax hbefore, hafter⟩

end Relaxes

section Runs

variable {adj : List (List WeightedEdge)}

lemma relaxes_edgeRelaxations (u : TokenIndex) (uDist : Float) (uRatio : U256) :
    ∀ (edges : List WeightedEdge) (s : BfState),
      Relaxes s (edgeRelaxations u uDist uRatio edges s) (edges.foldl (relaxEdge u uDist uRatio) s)
  | [], _ => .nil
  | we :: edges, s =>
      Relaxes.relax (r := ⟨u, uDist, uRatio, we, s⟩) (relaxes_edgeRelaxations u uDist uRatio edges _)

lemma relaxes_nodeRelaxations :
    ∀ (active : List ℕ) (s : BfState),
      Relaxes s (nodeRelaxations adj active s) (active.foldl (relaxNode adj) s)
  | [], _ => .nil
  | u :: active, s =>
      (relaxes_edgeRelaxations u _ _ (weightedEdgesAt adj u) s).append (relaxes_nodeRelaxations active _)

lemma exists_mem_edgeRelaxations (u : TokenIndex) (uDist : Float) (uRatio : U256) {we : WeightedEdge} :
    ∀ (edges : List WeightedEdge) (s : BfState), we ∈ edges →
      ∃ r ∈ edgeRelaxations u uDist uRatio edges s, r.edge = we
  | we' :: edges, s, hmem => by
      rcases List.mem_cons.mp hmem with rfl | hmem
      · exact ⟨_, List.mem_cons_self, rfl⟩
      · rcases exists_mem_edgeRelaxations u uDist uRatio edges (relaxEdge u uDist uRatio s we') hmem with
          ⟨r, hr, hedge⟩
        exact ⟨r, List.mem_cons_of_mem _ hr, hedge⟩

/-- Every edge of an active token is relaxed. -/
lemma exists_mem_nodeRelaxations {u : TokenIndex} {we : WeightedEdge} (hedge : we ∈ weightedEdgesAt adj u) :
    ∀ (active : List ℕ) (s : BfState), u ∈ active → ∃ r ∈ nodeRelaxations adj active s, r.edge = we
  | u' :: active, s, hmem => by
      rw [nodeRelaxations]
      rcases List.mem_cons.mp hmem with rfl | hmem
      · rcases exists_mem_edgeRelaxations u _ _ _ s hedge with ⟨r, hr, heq⟩
        exact ⟨r, List.mem_append_left _ hr, heq⟩
      · rcases exists_mem_nodeRelaxations hedge active (relaxNode adj s u') hmem with ⟨r, hr, heq⟩
        exact ⟨r, List.mem_append_right _ hr, heq⟩

end Runs

/-! ## Visited tokens -/

/-- The token has a distance, and unless it is the source, a predecessor. -/
def Visited (source : TokenIndex) (s : BfState) (v : TokenIndex) : Prop :=
  (slotAt s.slots v).dist.isFinite = true ∧ (v ≠ source → (slotAt s.slots v).predNode.isSome = true)

/-- A token that was not visited has a pristine slot. -/
structure Settled (n : ℕ) (source : TokenIndex) (s : BfState) : Prop where
  length : s.slots.length = n
  start : Visited source s source
  pristine : ∀ v, ¬ Visited source s v → slotAt s.slots v = .pristine

section Visited

variable {n : ℕ} {source : TokenIndex} {r : Relaxation} {s t : BfState} {rs : List Relaxation} {v : TokenIndex}

/-- A visited token stays visited, and the target of an improvement becomes visited. -/
lemma visited_after_of_improves (hfinite : ¬ r.Overflows) (hlive : r.Live) (h : r.Improves) :
    Visited source r.after v ↔ v = r.target ∨ Visited source r.before v := by
  have hdist : r.newDist.isFinite = true := by
    by_contra hinf
    exact hfinite ⟨hlive, h, Bool.eq_false_of_not_eq_true hinf⟩
  rw [Visited, Relaxation.after_of_improves hlive h]
  dsimp only
  rw [slotAt_set]
  by_cases hv : v = r.target
  · rw [if_pos ⟨hv, hlive.1⟩]
    exact ⟨fun _ => .inl hv, fun _ => ⟨hdist, fun _ => rfl⟩⟩
  · rw [if_neg fun hset => hv hset.1]
    exact ⟨.inr, fun h => h.resolve_left hv⟩

/-- Without an infinite distance being written, a relaxation visits its target if and only if the product exceeds
`ONE`. -/
lemma visited_after_iff (hfinite : ¬ r.Overflows) (hbefore : Settled n source r.before) :
    Visited source r.after v ↔ Visited source r.before v ∨ r.OffersGain v := by
  by_cases hlive : r.Live
  · by_cases himproves : r.Improves
    · rw [visited_after_of_improves hfinite hlive himproves]
      constructor
      · rintro (rfl | hv)
        · by_cases hv : Visited source r.before r.target
          · exact .inl hv
          · have hold : r.old = .pristine := hbefore.pristine _ hv
            rw [Relaxation.Improves, hold] at himproves
            exact .inr ⟨hlive, rfl, himproves.resolve_left (not_lt_pristine _)⟩
        · exact .inl hv
      · rintro (hv | ⟨_, rfl, _⟩)
        · exact .inr hv
        · exact .inl rfl
    · rw [Relaxation.after_of_not fun h => himproves h.2]
      constructor
      · exact .inl
      · rintro (hv | ⟨_, rfl, hgain⟩)
        · exact hv
        · by_contra hv
          have hold : r.old = .pristine := hbefore.pristine _ hv
          rw [Relaxation.Improves, hold] at himproves
          exact himproves (.inr hgain)
  · rw [Relaxation.after_of_not fun h => hlive h.1]
    constructor
    · exact .inl
    · rintro (hv | hgain)
      · exact hv
      · exact absurd hgain.1 hlive

lemma settled_after (hfinite : ¬ r.Overflows) (hbefore : Settled n source r.before) :
    Settled n source r.after := by
  by_cases h : r.Live ∧ r.Improves
  · have hvisited : ∀ v, Visited source r.after v ↔ v = r.target ∨ Visited source r.before v :=
      fun _ => visited_after_of_improves hfinite h.1 h.2
    refine ⟨?_, (hvisited source).mpr (.inr hbefore.start), fun v hv => ?_⟩
    · rw [Relaxation.after_of_improves h.1 h.2, List.length_set]
      exact hbefore.length
    · rw [hvisited, not_or] at hv
      rw [Relaxation.after_of_improves h.1 h.2, slotAt_set, if_neg fun hset => hv.1 hset.1]
      exact hbefore.pristine v hv.2
  · rw [Relaxation.after_of_not h]
    exact hbefore

lemma Relaxes.settled (h : Relaxes s rs t) (hfinite : ∀ r ∈ rs, ¬ r.Overflows) (hs : Settled n source s) :
    Settled n source t := by
  induction h with
  | nil => exact hs
  | relax _ ih =>
      rw [List.forall_mem_cons] at hfinite
      exact ih hfinite.2 (settled_after hfinite.1 hs)

/-- The tokens a run visits are those to which one of its relaxations offers a gain. -/
lemma Relaxes.visited_iff (h : Relaxes s rs t) (hfinite : ∀ r ∈ rs, ¬ r.Overflows)
    (hs : Settled n source s) : Visited source t v ↔ Visited source s v ∨ ∃ r ∈ rs, r.OffersGain v := by
  induction h with
  | nil => simp
  | relax _ ih =>
      rw [List.forall_mem_cons] at hfinite
      rw [ih hfinite.2 (settled_after hfinite.1 hs), visited_after_iff hfinite.1 hs, or_assoc]
      simp only [List.mem_cons, exists_eq_or_imp]

/-- A token visited for the first time is relaxed in the next round. -/
lemma Relaxes.visited_or_mem (h : Relaxes s rs t) (hfinite : ∀ r ∈ rs, ¬ r.Overflows)
    (hs : Settled n source s) :
    s.nextActive ⊆ t.nextActive ∧ (Visited source t v → Visited source s v ∨ v ∈ t.nextActive) := by
  induction h with
  | nil => exact ⟨fun _ => id, .inl⟩
  | @relax r rs t _ ih =>
      rw [List.forall_mem_cons] at hfinite
      rcases ih hfinite.2 (settled_after hfinite.1 hs) with ⟨hsub, hvisited⟩
      by_cases himproves : r.Live ∧ r.Improves
      · have hafter := Relaxation.after_of_improves himproves.1 himproves.2
        refine ⟨fun w hw => hsub ?_, fun hv => ?_⟩
        · rw [hafter]
          dsimp only
          split_ifs
          · exact hw
          · exact List.mem_append_left _ hw
        · rcases hvisited hv with hv | hmem
          · rw [visited_after_of_improves hfinite.1 himproves.1 himproves.2] at hv
            rcases hv with rfl | hv
            · by_cases hold : Visited source r.before r.target
              · exact .inl hold
              · have hslot : r.old = .pristine := hs.pristine _ hold
                refine .inr (hsub ?_)
                rw [hafter, hslot]
                exact List.mem_append_right _ (List.mem_singleton_self _)
            · exact .inl hv
          · exact .inr hmem
      · rw [Relaxation.after_of_not himproves] at hsub hvisited
        exact ⟨hsub, hvisited⟩

end Visited

/-! ## Rounds -/

section Rounds

variable {adj : List (List WeightedEdge)} {n : ℕ} {source : TokenIndex} {s : BfState} {active : List ℕ}
  {v : TokenIndex}

/-- The start of a round changes no distance, ratio or predecessor. -/
lemma slotAt_roundStart (active : List ℕ) (s : BfState) (v : TokenIndex) :
    slotAt (roundStart active s).slots v = slotAt s.slots v ∨
      slotAt (roundStart active s).slots v = { slotAt s.slots v with inNext := false } := by
  refine List.foldlRecOn active clearInNext
    (motive := fun slots => slotAt slots v = slotAt s.slots v ∨
      slotAt slots v = { slotAt s.slots v with inNext := false }) (.inl rfl) fun slots hslots u _ => ?_
  rw [clearInNext, slotAt_set]
  split_ifs with hset
  · obtain ⟨rfl, -⟩ := hset
    rcases hslots with heq | heq <;> rw [heq] <;> exact .inr rfl
  · exact hslots

lemma visited_roundStart : Visited source (roundStart active s) v ↔ Visited source s v := by
  rcases slotAt_roundStart active s v with heq | heq <;> rw [Visited, heq, Visited]

lemma settled_roundStart (hs : Settled n source s) : Settled n source (roundStart active s) := by
  refine ⟨?_, visited_roundStart.mpr hs.start, fun v hv => ?_⟩
  · exact List.foldlRecOn active clearInNext (motive := fun slots => slots.length = n) hs.length
      fun _ hlength _ _ => List.length_set.trans hlength
  · rw [visited_roundStart] at hv
    rcases slotAt_roundStart active s v with heq | heq <;> rw [heq, hs.pristine v hv]
    rfl

/-- The rounds go on from the visited tokens: one that is not active has its live neighbours visited. -/
def Frontier (adj : List (List WeightedEdge)) (n : ℕ) (source : TokenIndex) (s : BfState)
    (active : List ℕ) : Prop :=
  ∀ v, Visited source s v → v ∈ active ∨
    ∀ we ∈ weightedEdgesAt adj v, we.ratio ≠ 0 → we.edge.tokenOut < n → Visited source s we.edge.tokenOut

section Round

variable (hs : Settled n source s)
  (hfinite : ∀ r ∈ nodeRelaxations adj active (roundStart active s), ¬ r.Overflows)

include hs hfinite

lemma settled_relaxRound : Settled n source (relaxRound adj active s) :=
  (relaxes_nodeRelaxations active _).settled hfinite (settled_roundStart hs)

lemma visited_relaxRound_iff :
    Visited source (relaxRound adj active s) v ↔ Visited source s v ∨
      ∃ r ∈ nodeRelaxations adj active (roundStart active s), r.OffersGain v := by
  have hstart : Visited source (roundStart active s) v ↔ Visited source s v := visited_roundStart
  rw [← hstart]
  exact (relaxes_nodeRelaxations active _).visited_iff hfinite (settled_roundStart hs)

variable (hmiss : ∀ r ∈ nodeRelaxations adj active (roundStart active s), ¬ r.MissesToken)

include hmiss

/-- The live neighbours of an active token are visited in its round. -/
lemma visited_of_active {we : WeightedEdge} (hv : v ∈ active) (hedge : we ∈ weightedEdgesAt adj v)
    (hlive : we.ratio ≠ 0) (hlt : we.edge.tokenOut < n) :
    Visited source (relaxRound adj active s) we.edge.tokenOut := by
  have hrun : Relaxes (roundStart active s) (nodeRelaxations adj active (roundStart active s))
      (relaxRound adj active s) := relaxes_nodeRelaxations active _
  rcases exists_mem_nodeRelaxations hedge active (roundStart active s) hv with ⟨r, hr, rfl⟩
  rcases hrun.split hr with ⟨rs₁, rs₂, hsplit, hbefore, -⟩
  have hprefix : ∀ r ∈ rs₁, ¬ r.Overflows := fun r' hr' =>
    hfinite r' (by rw [hsplit]; exact List.mem_append_left _ hr')
  have hsettled : Settled n source r.before := hbefore.settled hprefix (settled_roundStart hs)
  rw [visited_relaxRound_iff hs hfinite]
  by_cases hvisited : Visited source r.before r.target
  · -- the relaxations before this one are relaxations of the round
    rcases (hbefore.visited_iff hprefix (settled_roundStart hs)).mp hvisited with hold | ⟨r', hr', hgain⟩
    · exact .inl (visited_roundStart.mp hold)
    · exact .inr ⟨r', by rw [hsplit]; exact List.mem_append_left _ hr', hgain⟩
  · have hold : r.old = .pristine := hsettled.pristine _ hvisited
    have hrlive : r.Live := ⟨by rw [hsettled.length]; exact hlt, hlive⟩
    have hinf : r.old.dist.isFinite = false := by
      rw [hold]
      exact isFinite_pristine
    exact .inr ⟨r, hr, hrlive, rfl, BitVec.not_le.mp fun hle => hmiss r hr ⟨hrlive, hinf, hle⟩⟩

lemma frontier_relaxRound (hfrontier : Frontier adj n source s active) :
    Frontier adj n source (relaxRound adj active s) (relaxRound adj active s).nextActive := by
  intro v hv
  rcases ((relaxes_nodeRelaxations active _).visited_or_mem hfinite (settled_roundStart hs)).2 hv with
    hold | hmem
  · right
    intro we hedge hlive hlt
    rcases hfrontier v (visited_roundStart.mp hold) with hactive | hdone
    · exact visited_of_active hs hfinite hmiss hactive hedge hlive hlt
    · exact (visited_relaxRound_iff hs hfinite).mpr (.inl (hdone we hedge hlive hlt))
  · exact .inl hmem

end Round

end Rounds

/-! ## Reached tokens -/

/-- `v` is reached from `u` over `k` live edges. -/
inductive LiveWalk (adj : List (List WeightedEdge)) (n : ℕ) : TokenIndex → ℕ → TokenIndex → Prop
  | nil {u : TokenIndex} : LiveWalk adj n u 0 u
  | cons {u v : TokenIndex} {k : ℕ} {we : WeightedEdge} (hedge : we ∈ weightedEdgesAt adj u)
      (hlive : we.ratio ≠ 0) (hlt : we.edge.tokenOut < n) (h : LiveWalk adj n we.edge.tokenOut k v) :
      LiveWalk adj n u (k + 1) v

section Reach

variable {adj : List (List WeightedEdge)} {n : ℕ} {source : TokenIndex}

lemma visited_relaxRounds_iff (rounds : ℕ) :
    ∀ (active : List ℕ) (s : BfState) {v : TokenIndex},
      (∀ r ∈ roundRelaxations adj rounds active s, ¬ r.Overflows) → Settled n source s →
      (Visited source (relaxRounds adj rounds active s) v ↔ Visited source s v ∨
        ∃ r ∈ roundRelaxations adj rounds active s, r.OffersGain v) := by
  induction rounds with
  | zero => simp [relaxRounds, roundRelaxations]
  | succ rounds ih =>
      intro active s v hfinite hs
      rw [relaxRounds, roundRelaxations] at *
      by_cases hactive : active = []
      · simp [hactive]
      · rw [if_neg hactive] at hfinite ⊢
        rw [if_neg hactive]
        rw [List.forall_mem_append] at hfinite
        dsimp only
        rw [ih _ _ hfinite.2 (settled_relaxRound hs hfinite.1), visited_relaxRound_iff hs hfinite.1, or_assoc]
        simp only [List.mem_append, or_and_right, exists_or]

/-- Rounds that miss no token visit what the live edges reach from a visited token. -/
lemma visited_of_liveWalk (rounds : ℕ) :
    ∀ (active : List ℕ) (s : BfState) {u v : TokenIndex} {k : ℕ},
      (∀ r ∈ roundRelaxations adj rounds active s, ¬ r.Overflows ∧ ¬ r.MissesToken) →
      Settled n source s → Frontier adj n source s active → Visited source s u → LiveWalk adj n u k v →
      k ≤ rounds → Visited source (relaxRounds adj rounds active s) v := by
  induction rounds with
  | zero =>
      intro active s u v k _ _ _ hu hwalk hk
      cases hwalk with
      | nil => exact hu
      | cons => exact absurd hk (Nat.not_succ_le_zero _)
  | succ rounds ih =>
      intro active s u v k hmeets hs hfrontier hu hwalk hk
      rw [relaxRounds]
      rw [roundRelaxations] at hmeets
      by_cases hactive : active = []
      · -- no token is active, so the visited ones are closed under live edges
        rw [if_pos hactive]
        clear hk hmeets
        induction hwalk with
        | nil => exact hu
        | cons hedge hlive hlt _ ihwalk =>
            rcases hfrontier _ hu with hmem | hdone
            · rw [hactive] at hmem
              cases hmem
            · exact ihwalk (hdone _ hedge hlive hlt)
      · rw [if_neg hactive] at hmeets ⊢
        rw [List.forall_mem_append] at hmeets
        have hfinite := fun r hr => (hmeets.1 r hr).1
        have hmiss := fun r hr => (hmeets.1 r hr).2
        have hround := settled_relaxRound hs hfinite
        have hnext := frontier_relaxRound hs hfinite hmiss hfrontier
        cases hwalk with
        | nil =>
            exact ih _ _ hmeets.2 hround hnext ((visited_relaxRound_iff hs hfinite).mpr (.inl hu)) .nil
              (Nat.zero_le _)
        | cons hedge hlive hlt hwalk =>
            refine ih _ _ hmeets.2 hround hnext ?_ hwalk (Nat.le_of_succ_le_succ hk)
            rcases hfrontier u hu with hmem | hdone
            · exact visited_of_active hs hfinite hmiss hmem hedge hlive hlt
            · exact (visited_relaxRound_iff hs hfinite).mpr (.inl (hdone _ hedge hlive hlt))

lemma slotAt_sourceState (hsource : source < n) (v : TokenIndex) :
    slotAt (sourceState source (List.replicate n .pristine)).slots v =
      if v = source then { BfSlot.pristine with dist := 0.0 } else .pristine := by
  have hpristine : ∀ w, slotAt (List.replicate n .pristine) w = .pristine := by
    intro w
    by_cases hw : w < n <;> simp [slotAt, hw]
  rw [sourceState]
  dsimp only
  rw [slotAt_set, List.length_replicate, hpristine, hpristine]
  by_cases hv : v = source
  · rw [if_pos ⟨hv, hsource⟩, if_pos hv]
    rfl
  · rw [if_neg fun h => hv h.1, if_neg hv]

lemma visited_sourceState_iff (hsource : source < n) (v : TokenIndex) :
    Visited source (sourceState source (List.replicate n .pristine)) v ↔ v = source := by
  rw [Visited, slotAt_sourceState hsource]
  by_cases hv : v = source
  · rw [if_pos hv]
    exact ⟨fun _ => hv, fun _ => ⟨by decide, fun hne => absurd hv hne⟩⟩
  · rw [if_neg hv, isFinite_pristine]
    exact ⟨fun h => absurd h.1 Bool.false_ne_true, fun h => absurd h hv⟩

lemma settled_sourceState (hsource : source < n) :
    Settled n source (sourceState source (List.replicate n .pristine)) := by
  refine ⟨?_, (visited_sourceState_iff hsource source).mpr rfl, fun v hv => ?_⟩
  · rw [sourceState, List.length_set, List.length_replicate]
  · rw [visited_sourceState_iff hsource] at hv
    rw [slotAt_sourceState hsource, if_neg hv]

lemma frontier_sourceState (hsource : source < n) :
    Frontier adj n source (sourceState source (List.replicate n .pristine)) [source] := by
  intro v hv
  rw [visited_sourceState_iff hsource] at hv
  exact .inl (List.mem_singleton.mpr hv)

/-- Every token within `rounds` live edges of the source has a distance, and unless it is the source, a
predecessor. -/
def ReachesAll (adj : List (List WeightedEdge)) (n rounds : ℕ) (source : TokenIndex) : Prop :=
  ∀ k ≤ rounds, ∀ v, LiveWalk adj n source k v →
    Visited source (relaxFrom adj rounds source (List.replicate n .pristine)) v

/-- The relaxation from a source on a pristine scratch.  If no infinite distance is written, it
reaches all tokens within its rounds exactly when each of them is offered a product above `ONE`; and it does so
whenever no relaxation misses its token. -/
theorem relaxFrom_reaches (adj : List (List WeightedEdge)) (n rounds : ℕ) (source : TokenIndex)
    (hsource : source < n) :
    ((∀ r ∈ relaxationsFrom adj rounds source (List.replicate n .pristine), ¬ r.Overflows) →
      (ReachesAll adj n rounds source ↔
        ∀ k ≤ rounds, ∀ v ≠ source, LiveWalk adj n source k v →
          ∃ r ∈ relaxationsFrom adj rounds source (List.replicate n .pristine), r.OffersGain v)) ∧
    ((∀ r ∈ relaxationsFrom adj rounds source (List.replicate n .pristine),
        ¬ r.Overflows ∧ ¬ r.MissesToken) →
      ReachesAll adj n rounds source) := by
  have hstart := settled_sourceState hsource
  have hvisited := visited_sourceState_iff hsource
  constructor
  · intro hfinite
    have hiff : ∀ v, Visited source (relaxFrom adj rounds source (List.replicate n .pristine)) v ↔
        v = source ∨ ∃ r ∈ relaxationsFrom adj rounds source (List.replicate n .pristine), r.OffersGain v := by
      intro v
      rw [← hvisited v]
      exact visited_relaxRounds_iff rounds [source] _ hfinite hstart
    constructor
    · intro h k hk v hne hwalk
      exact ((hiff v).mp (h k hk v hwalk)).resolve_left hne
    · intro h k hk v hwalk
      rw [hiff]
      by_cases hv : v = source
      · exact .inl hv
      · exact .inr (h k hk v hv hwalk)
  · intro hmeets k hk v hwalk
    exact visited_of_liveWalk rounds [source] _ hmeets hstart (frontier_sourceState hsource)
      ((hvisited source).mpr rfl) hwalk hk

end Reach

/-! ## A lossy hop -/

section Lossy

/-- Half of the value is left after this hop; the weight is `ln 2`. -/
def lossyHop : WeightedEdge :=
  ⟨⟨0, 0, 1, 0, 1, .uniswapV2, 30, true⟩, Float.ofBits 0x3FE62E42FEFA39EF, 500000000000000000#256⟩

/-- The value is tripled on the way back; the weight is `-ln 3`. -/
def gainfulHop : WeightedEdge :=
  ⟨⟨1, 1, 0, 0, 1, .uniswapV2, 30, false⟩, Float.ofBits 0xBFF193EA7AAD030B, 3000000000000000000#256⟩

def lossyAdj : List (List WeightedEdge) := [[lossyHop], [gainfulHop]]

/-- From the side of the gain, both tokens are reached. -/
theorem relaxFrom_reaches_gainful : ReachesAll lossyAdj 2 8 1 :=
  (relaxFrom_reaches lossyAdj 2 8 1 (by decide)).2 (by decide)

/-- From the other side, the token behind the lossy hop is not, although the way around gains. -/
theorem relaxFrom_misses_lossy :
    lossyHop.weight.isFinite = true ∧ LiveWalk lossyAdj 2 0 1 1 ∧
      ¬ Visited 0 (relaxFrom lossyAdj 8 0 (List.replicate 2 .pristine)) 1 ∧ ¬ ReachesAll lossyAdj 2 8 0 := by
  have hedge : lossyHop ∈ weightedEdgesAt lossyAdj 0 := by decide
  have hwalk : LiveWalk lossyAdj 2 0 1 1 := .cons hedge (by decide) (by decide) .nil
  have hmissed : ¬ Visited 0 (relaxFrom lossyAdj 8 0 (List.replicate 2 .pristine)) 1 := fun h =>
    absurd h.1 (by decide +kernel)
  exact ⟨by decide, hwalk, hmissed, fun h => hmissed (h 1 (by decide) 1 hwalk)⟩

end Lossy

end PolygonArb

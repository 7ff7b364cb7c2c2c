import Mathlib.Data.List.Rotate
import PolygonArb.Services.Risk

/-!
# Claims on the assessment of a cycle

`try_claim_route_assess` of `services/execution/service/risk.rs`: several workers find the same cycle,
each from its own start, and only one of them is to assess it.  A claim is written down under every
rotation of the edges, for `routeAssessClaimTtl`, and one finds out about another by looking every
rotation up.

The check of the quarantine comes before the lock is taken, so a call carries the quarantine it saw.
Under the lock the calls are one after another, at times that do not decrease.

`Agree` relates the books of two runs that differ in claims of other cycles; `assess_claims_exclusive` is
the result.
-/

namespace PolygonArb

open Expiry

def routeAssessClaimTtl : ℕ := fromSecs 3

/-! ## Rotations -/

/-- `any_edge_rotation`: the edges, and then one further to the left each time. -/
def edgeRotationsFrom : ℕ → List Edge → List (List Edge)
  | 0, _ => []
  | n + 1, rotated => rotated :: edgeRotationsFrom n (rotated.rotate 1)

def edgeRotations (edges : List Edge) : List (List Edge) := edgeRotationsFrom edges.length edges

lemma mem_edgeRotationsFrom {n : ℕ} {edges r : List Edge} :
    r ∈ edgeRotationsFrom n edges ↔ ∃ k < n, edges.rotate k = r := by
  induction n generalizing edges with
  | zero => simp [edgeRotationsFrom]
  | succ n ih =>
      rw [edgeRotationsFrom, List.mem_cons, ih]
      constructor
      · rintro (rfl | ⟨k, hk, rfl⟩)
        · exact ⟨0, by omega, List.rotate_zero _⟩
        · exact ⟨1 + k, by omega, by rw [List.rotate_rotate]⟩
      · rintro ⟨k, hk, rfl⟩
        cases k with
        | zero => exact .inl (List.rotate_zero _)
        | succ k => exact .inr ⟨k, by omega, by rw [List.rotate_rotate, Nat.add_comm]⟩

/-- Every rotation is visited; an empty route has none. -/
lemma mem_edgeRotations {edges r : List Edge} :
    r ∈ edgeRotations edges ↔ edges ≠ [] ∧ edges ~r r := by
  rw [edgeRotations, mem_edgeRotationsFrom]
  constructor
  · rintro ⟨k, hk, rfl⟩
    refine ⟨?_, ⟨k, rfl⟩⟩
    rintro rfl
    simp at hk
  · rintro ⟨hne, k, rfl⟩
    have hpos : 0 < edges.length := List.length_pos_iff.mpr hne
    exact ⟨k % edges.length, Nat.mod_lt _ hpos, List.rotate_mod edges k⟩

/-! ## Claims -/

/-- The claims in force, and how many calls got as far as making one. -/
structure AssessClaims where
  assessInflight : ExpiryMap (List Edge)
  claims : ℕ

def AssessClaims.init : AssessClaims := ⟨fun _ => none, 0⟩

/-- A call: the edges, the quarantine it saw and when, and the time it took the lock at. -/
structure AssessCall where
  edges : List Edge
  quarantine : ExpiryMap (List Edge)
  checkedAt : Instant
  now : Instant

def cycleEdgesQuarantined (quarantine : ExpiryMap (List Edge)) (edges : List Edge) (now : Instant) :
    Bool :=
  (edgeRotations edges).any fun rotation => isLive quarantine rotation now

/-- `for_each_edge_rotation(edges, |rotation| map.insert(rotation, until))`. -/
def claimRotations (map : ExpiryMap (List Edge)) (edges : List Edge) (until_ : Instant) :
    ExpiryMap (List Edge) :=
  (edgeRotations edges).foldl (fun map rotation => put map rotation until_) map

/-- Every thirty-second claim drops what is over. -/
def AssessClaims.kept (s : AssessClaims) (now : Instant) : ExpiryMap (List Edge) :=
  if s.claims % 32 = 0 then prune s.assessInflight now else s.assessInflight

def AssessClaims.tryClaimRouteAssess (s : AssessClaims) (call : AssessCall) : Bool × AssessClaims :=
  if call.edges.isEmpty || cycleEdgesQuarantined call.quarantine call.edges call.checkedAt then (false, s)
  else if (edgeRotations call.edges).any fun rotation => isLive s.assessInflight rotation call.now then
    (false, s)
  else
    (true, ⟨claimRotations (s.kept call.now) call.edges (call.now + routeAssessClaimTtl), s.claims + 1⟩)

/-- The book after a sequence of calls. -/
def AssessClaims.after (s : AssessClaims) (calls : List AssessCall) : AssessClaims :=
  calls.foldl (fun s call => (s.tryClaimRouteAssess call).2) s

/-- The call gets the claim after the calls before it. -/
def getsClaim (before : List AssessCall) (call : AssessCall) : Bool :=
  ((AssessClaims.init.after before).tryClaimRouteAssess call).1

/-- The lock was taken at times that do not decrease. -/
def InOrder (calls : List AssessCall) : Prop := (calls.map AssessCall.now).Pairwise (· ≤ ·)

/-! ## What one call does -/

variable {s s' : AssessClaims} {call : AssessCall} {e r : List Edge} {t u : Instant}

/-- A call is turned away by a quarantine or by a claim on one of its rotations. -/
lemma tryClaim_eq_true_iff :
    (s.tryClaimRouteAssess call).1 = true ↔
      call.edges ≠ [] ∧
      cycleEdgesQuarantined call.quarantine call.edges call.checkedAt = false ∧
      ∀ r, call.edges ~r r → ¬ Live s.assessInflight r call.now := by
  rw [AssessClaims.tryClaimRouteAssess]
  split_ifs with hout hlive
  · simp only [false_iff]
    rintro ⟨hne, hfree, -⟩
    simp [hne, hfree] at hout
  · simp only [false_iff]
    rintro ⟨-, -, hall⟩
    rcases List.any_eq_true.mp hlive with ⟨rotation, hmem, hrotation⟩
    exact hall rotation (mem_edgeRotations.mp hmem).2 (isLive_iff.mp hrotation)
  · simp only [true_iff]
    rw [Bool.or_eq_true, not_or, Bool.not_eq_true, Bool.not_eq_true, List.isEmpty_eq_false_iff] at hout
    refine ⟨hout.1, hout.2, ?_⟩
    intro rotation hrotated hrotation
    refine hlive (List.any_eq_true.mpr ⟨rotation, ?_, isLive_iff.mpr hrotation⟩)
    exact mem_edgeRotations.mpr ⟨hout.1, hrotated⟩

lemma tryClaim_of_false (h : (s.tryClaimRouteAssess call).1 = false) :
    (s.tryClaimRouteAssess call).2 = s := by
  rw [AssessClaims.tryClaimRouteAssess] at h ⊢
  split_ifs at h ⊢
  · rfl
  · rfl

lemma tryClaim_of_true (h : (s.tryClaimRouteAssess call).1 = true) :
    (s.tryClaimRouteAssess call).2.assessInflight =
      claimRotations (s.kept call.now) call.edges (call.now + routeAssessClaimTtl) := by
  rw [AssessClaims.tryClaimRouteAssess] at h ⊢
  split_ifs at h ⊢
  rfl

lemma live_kept (ht : call.now ≤ t) : Live (s.kept call.now) r t ↔ Live s.assessInflight r t := by
  rw [AssessClaims.kept]
  split_ifs
  · exact live_prune ht
  · rfl

/-- A rotation of a cycle that got the claim is live as long as the claim lasts. -/
lemma live_tryClaim_of_rotated (h : (s.tryClaimRouteAssess call).1 = true) (hr : call.edges ~r r) :
    Live (s.tryClaimRouteAssess call).2.assessInflight r t ↔ t < call.now + routeAssessClaimTtl := by
  have hmem : r ∈ edgeRotations call.edges :=
    mem_edgeRotations.mpr ⟨(tryClaim_eq_true_iff.mp h).1, hr⟩
  simp [Live, tryClaim_of_true h, claimRotations, foldl_put, hmem]

/-- A call does not change what is known about other cycles. -/
lemma live_tryClaim_of_not_rotated (ht : call.now ≤ t) (hr : ¬ call.edges ~r r) :
    Live (s.tryClaimRouteAssess call).2.assessInflight r t ↔ Live s.assessInflight r t := by
  cases h : (s.tryClaimRouteAssess call).1 with
  | false => rw [tryClaim_of_false h]
  | true =>
      have hmem : r ∉ edgeRotations call.edges := fun hmem => hr (mem_edgeRotations.mp hmem).2
      rw [Live, tryClaim_of_true h, claimRotations, foldl_put, if_neg hmem]
      exact live_kept ht

/-- What a call keeps of two books, from its time on, is kept by calls in the order of their times. -/
lemma exists_after {P : Instant → AssessClaims → AssessClaims → Prop}
    (hstep : ∀ {T s s' call}, P T s s' → T ≤ call.now →
      P call.now (s.tryClaimRouteAssess call).2 (s'.tryClaimRouteAssess call).2)
    {T : Instant} {mid : List AssessCall} (h : P T s s')
    (hmid : (T :: mid.map AssessCall.now).Pairwise (· ≤ ·)) :
    ∃ T', P T' (s.after mid) (s'.after mid) ∧
      ∀ now, (T :: mid.map AssessCall.now ++ [now]).Pairwise (· ≤ ·) → T' ≤ now := by
  induction mid generalizing s s' T with
  | nil => exact ⟨T, h, fun now hnow => (List.pairwise_cons.mp hnow).1 now (by simp)⟩
  | cons call mid ih =>
      rw [List.map_cons, List.pairwise_cons] at hmid
      rcases ih (hstep h (hmid.1 call.now (by simp))) hmid.2 with ⟨T', hT', hlast⟩
      refine ⟨T', hT', ?_⟩
      intro now hnow
      exact hlast now (List.pairwise_cons.mp hnow).2

/-! ## Claims of one cycle exclude each other -/

/-- From `T` on, the rotation `r` is taken until `u`. -/
def TakenUntil (s : AssessClaims) (r : List Edge) (T u : Instant) : Prop :=
  ∀ t, T ≤ t → t < u → Live s.assessInflight r t

/-- Nobody gets the claim of a cycle that is taken. -/
lemma TakenUntil.step {T : Instant} (h : TakenUntil s r T u) (hT : T ≤ call.now) :
    TakenUntil (s.tryClaimRouteAssess call).2 r call.now u := by
  intro t ht hu
  have hnow : Live s.assessInflight r call.now := h call.now hT (lt_of_le_of_lt ht hu)
  have hlive : Live s.assessInflight r t := h t (le_trans hT ht) hu
  by_cases hr : call.edges ~r r
  · cases hclaim : (s.tryClaimRouteAssess call).1 with
    | false => rwa [tryClaim_of_false hclaim]
    | true => exact absurd hnow ((tryClaim_eq_true_iff.mp hclaim).2.2 r hr)
  · exact (live_tryClaim_of_not_rotated ht hr).mpr hlive

/-! ## Claims of other cycles -/

/-- From `T` on, the two books say the same about the rotations of `e`. -/
def Agree (e : List Edge) (T : Instant) (s s' : AssessClaims) : Prop :=
  ∀ r, e ~r r → ∀ t, T ≤ t → (Live s.assessInflight r t ↔ Live s'.assessInflight r t)

lemma Agree.tryClaim_eq {T : Instant} (h : Agree e T s s') (hT : T ≤ call.now) (he : e ~r call.edges) :
    (s.tryClaimRouteAssess call).1 = (s'.tryClaimRouteAssess call).1 := by
  rw [Bool.eq_iff_iff, tryClaim_eq_true_iff, tryClaim_eq_true_iff]
  refine and_congr_right fun _ => and_congr_right fun _ => forall_congr' fun r => ?_
  exact imp_congr_right fun hr => not_congr (h r (he.trans hr) call.now hT)

/-- The same call leaves the two books in agreement. -/
lemma Agree.step {T : Instant} (h : Agree e T s s') (hT : T ≤ call.now) :
    Agree e call.now (s.tryClaimRouteAssess call).2 (s'.tryClaimRouteAssess call).2 := by
  intro r hr t ht
  have hbefore := h r hr t (le_trans hT ht)
  by_cases hcall : call.edges ~r r
  · have heq := h.tryClaim_eq hT (hr.trans hcall.symm)
    cases hclaim : (s.tryClaimRouteAssess call).1 with
    | false =>
        rw [hclaim] at heq
        rwa [tryClaim_of_false hclaim, tryClaim_of_false heq.symm]
    | true =>
        rw [hclaim] at heq
        rw [live_tryClaim_of_rotated hclaim hcall, live_tryClaim_of_rotated heq.symm hcall]
  · rwa [live_tryClaim_of_not_rotated ht hcall, live_tryClaim_of_not_rotated ht hcall]

/-- A call for another cycle leaves them in agreement too, when only one book has it. -/
lemma Agree.skip {T : Instant} (h : Agree e T s s') (hT : T ≤ call.now) (hcall : ¬ call.edges ~r e) :
    Agree e call.now (s.tryClaimRouteAssess call).2 s' := by
  intro r hr t ht
  rw [live_tryClaim_of_not_rotated ht fun hrotated => hcall (hrotated.trans hr.symm)]
  exact h r hr t (le_trans hT ht)

lemma after_append (s : AssessClaims) (before later : List AssessCall) :
    s.after (before ++ later) = (s.after before).after later := List.foldl_append

lemma InOrder.tail {before mid : List AssessCall} {first last : AssessCall}
    (h : InOrder (before ++ first :: mid ++ [last])) :
    (first.now :: mid.map AssessCall.now ++ [last.now]).Pairwise (· ≤ ·) := by
  rw [InOrder, List.append_assoc, List.map_append, List.pairwise_append] at h
  simpa using h.2.1

/-- Two claims of one cycle, from whatever start, are a claim's lifetime apart; and whether a call gets
the claim of a cycle does not depend on the calls for other cycles. -/
theorem assess_claims_exclusive :
    (∀ before first mid second,
      InOrder (before ++ first :: mid ++ [second]) → first.edges ~r second.edges →
      getsClaim before first = true → getsClaim (before ++ first :: mid) second = true →
      first.now + routeAssessClaimTtl ≤ second.now) ∧
    (∀ before other mid call,
      InOrder (before ++ other :: mid ++ [call]) → ¬ other.edges ~r call.edges →
      getsClaim (before ++ other :: mid) call = getsClaim (before ++ mid) call) := by
  constructor
  · intro before first mid second horder hrotated hfirst hsecond
    have htail := horder.tail
    have htaken : TakenUntil ((AssessClaims.init.after before).tryClaimRouteAssess first).2 second.edges
        first.now (first.now + routeAssessClaimTtl) :=
      fun t _ hu => (live_tryClaim_of_rotated hfirst hrotated).mpr hu
    rcases @exists_after _ AssessClaims.init (fun T s _ => TakenUntil s second.edges T _) TakenUntil.step _ _
      htaken (List.pairwise_append.mp htail).1 with ⟨T', hT', hlast⟩
    by_contra hclose
    have hlive := hT' second.now (hlast second.now htail) (not_le.mp hclose)
    rw [getsClaim, after_append] at hsecond
    exact (tryClaim_eq_true_iff.mp hsecond).2.2 second.edges (List.IsRotated.refl _) hlive
  · intro before other mid call horder hother
    have htail := horder.tail
    have hsame : Agree call.edges other.now (AssessClaims.init.after before)
        (AssessClaims.init.after before) := fun _ _ _ _ => Iff.rfl
    rcases exists_after Agree.step (hsame.skip (le_refl _) hother) (List.pairwise_append.mp htail).1 with
      ⟨T', hT', hlast⟩
    rw [getsClaim, getsClaim, after_append, after_append]
    exact hT'.tryClaim_eq (hlast call.now htail) (List.IsRotated.refl _)

/-- A cycle of two hops, claimed from either start; another cycle is claimed in between. -/
theorem assess_claims_exclusive_twoHops :
    let there : Edge := ⟨0, 0, 1, 0, 1, .uniswapV2, 30, true⟩
    let back : Edge := ⟨1, 1, 0, 1, 0, .uniswapV2, 30, false⟩
    let call (edges : List Edge) (now : Instant) : AssessCall := ⟨edges, fun _ => none, now, now⟩
    fromSecs 1 + routeAssessClaimTtl ≤ fromSecs 4 ∧
    getsClaim [call [there, back] (fromSecs 1), call [back] (fromSecs 2)] (call [back, there] (fromSecs 3)) =
      getsClaim [call [there, back] (fromSecs 1)] (call [back, there] (fromSecs 3)) := by
  intro there back call
  constructor
  · exact assess_claims_exclusive.1 [] (call [there, back] (fromSecs 1)) [] (call [back, there] (fromSecs 4))
      (by simp [InOrder, call, fromSecs]) ⟨1, rfl⟩ (by decide) (by decide)
  · exact assess_claims_exclusive.2 [call [there, back] (fromSecs 1)] (call [back] (fromSecs 2)) []
      (call [back, there] (fromSecs 3)) (by simp [InOrder, call, fromSecs])
      (by intro hrotated; simpa [call] using hrotated.perm.length_eq)

end PolygonArb

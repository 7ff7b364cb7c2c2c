import PolygonArb.Pipeline.V3Cooldown

/-!
# A long cooldown without a proof

In both families the long cooldown is armed for a pool whose reads all came back empty, or did not come back where
no flag tells of it.  A second wave through the tick lens that fails as a whole is one such case, and a second V4
wave of which no word is answered another one.
-/

namespace PolygonArb

open Word ByteFormat IndexTable

/-- The long cooldown of a pool is backed by a proof that it is empty if and only if the pool is not seen empty
with a read missing, in either family. -/
theorem empty_cooldown_proved_iff (v3 : V3Pass) (pool : Address) (v4 : V4Pass) (id : PoolId) (allowWiden : Bool) :
    (((v3.run allowWiden).ArmsEmpty pool →
          ∃ i, v3.arena.inner.addressToPool pool = some i ∧ v3.ProvedEmpty pool i) ↔
        ¬∃ i, v3.SeenEmpty pool i allowWiden ∧ v3.SilentGap pool i) ∧
      (((v4.run allowWiden).ArmsEmpty id → ∃ i, (i, id) ∈ v4.targets ∧ v4.ProvedEmpty (i, id)) ↔
        ¬∃ i, v4.SeenEmpty (i, id) allowWiden ∧ v4.SilentGap (i, id)) :=
  ⟨V3Pass.cooldown_proved_iff, V4Pass.cooldown_proved_iff⟩

section Example

/-- A node that does not answer in time. -/
def silentCalls : Multicall where
  run _ := .error "timeout"
  length_run := fun h => by cases h

/-- The batch goes through, and no call of it is answered. -/
def unansweredCalls : Multicall where
  run items := .ok (items.map fun _ => none)
  length_run := fun h => by
    cases h
    exact List.length_map _

/-- The reply of the tick lens to a word without ticks: an empty array. -/
def emptyWordReply : List Byte := toBe 32 32 ++ toBe 32 0

/-- The narrow words of a pool are all empty; the wide batch runs into a timeout. -/
def silentV3 : V3Pass where
  abi := contractAbi
  order := identityOrder
  rpc := ⟨constantCalls emptyWordReply, ⟨silentCalls, silentCalls⟩, silentCalls, ⟨silentCalls, silentCalls⟩⟩
  arena := loneArena (.v3 densePool)
  pools := [1]
  wordRange := 10
  algebraPools := ∅
  algebraIntegralPools := ∅
  overlayFits := Nat.zero_le _
  tables := fun a i => by
    rw [loneArena]
    dsimp only
    cases i with
    | zero => simp [eq_comm]
    | succ i => simp

lemma algebraTargets_silentV3 : silentV3.algebraTargets = [] := rfl

lemma lens_silentV3 :
    silentV3.lens = ⟨[⟨0, 0, 21⟩], List.replicate 21 (some emptyWordReply)⟩ := rfl

lemma lensWords_silentV3 : silentV3.lens.Complete contractAbi ∧ silentV3.lens.ShowsNothing contractAbi 0 := by
  rw [lens_silentV3, LensWave.Complete, LensWave.showsNothing_iff]
  simp only [List.mem_singleton, forall_eq]
  exact ⟨by decide +kernel, fun _ => by decide +kernel⟩

lemma narrowNothing_silentV3 : silentV3.NarrowNothing 0 := by
  refine ⟨lensWords_silentV3.2, ?_⟩
  rw [V3Pass.algebra, algebraTargets_silentV3]
  exact showsNothing_algebraWave_nil _ _

lemma wideTargets_silentV3 : silentV3.wideTargets = [1] := by
  have hstill : stillTicklessV3 silentV3.arena silentV3.pools = [1] := rfl
  have hfound : v3Pool silentV3.arena 1 = some (0, densePool) := rfl
  have hunique : ([1] : List Address).eraseDups = [1] := rfl
  rw [V3Pass.wideTargets, hstill, List.filter_cons_of_pos, List.filter_nil, hunique,
    List.perm_singleton.mp (perm_byLiquidity _ _ _)]
  · rfl
  · rw [hfound, Option.all_some]
    exact decide_eq_true narrowNothing_silentV3

lemma wideLens_silentV3 : silentV3.wideLens = ⟨[⟨0, 0, 61⟩], []⟩ := by
  rw [V3Pass.wideLens, wideTargets_silentV3]
  rfl

lemma wideAlgebra_silentV3 : silentV3.wideAlgebra.ShowsNothing silentV3.reader 0 := by
  have htargets : silentV3.wideAlgebraTargets = [] := by
    rw [V3Pass.wideAlgebraTargets, wideTargets_silentV3]
    rfl
  rw [V3Pass.wideAlgebra, htargets]
  exact showsNothing_algebraWave_nil _ _

/-- No narrow flag is raised. -/
lemma narrowClear_silentV3 : silentV3.NarrowClear where
  lensBatch := not_failed_of_ok rfl
  lensWords := lensWords_silentV3.1
  algebraBatches := by
    have hnone := @algebraWave_nil silentV3.arena silentV3.abi silentV3.order silentV3.rpc.algebra
    rw [algebraTargets_silentV3, algebraWaveFailed_of_nil hnone.2, hnone.1]
    exact fun hfailed => hfailed.1 rfl
  algebraBudget := by
    rw [V3Pass.algebra, algebraTargets_silentV3]
    exact not_overruns_of_queued_nil (algebraWave_nil _).2
  algebraPools := by
    rw [algebraTargets_silentV3]
    exact Nat.zero_le _

lemma seenEmpty_silentV3 : silentV3.SeenEmpty 1 0 true where
  listed := List.mem_singleton_self 1
  widens := rfl
  slot := rfl
  clear := narrowClear_silentV3
  tickless := ⟨densePool, rfl, rfl⟩
  narrow := narrowNothing_silentV3
  wide _ := by
    rw [wideTargets_silentV3, wideLens_silentV3]
    exact ⟨List.mem_singleton_self 1, by rw [LensWave.ShowsNothing, LensWave.groups_of_no_results rfl]; simp,
      wideAlgebra_silentV3⟩

lemma silentGap_silentV3 : silentV3.SilentGap 1 0 := by
  have hlabel : ¬silentV3.Labelled 1 := by
    rintro (h | h)
    · cases h
    · cases h
  refine Or.inr ⟨by decide, Or.inr ⟨hlabel, ?_⟩⟩
  rw [wideLens_silentV3]
  exact ⟨⟨0, 0, 61⟩, List.mem_singleton_self _, rfl, rfl⟩

/-- The narrow words of a pool are all zero; none of the wide ones is answered. -/
def silentV4 (keccak256 : List Byte → BitVec 256) : V4Pass where
  keccak256 := keccak256
  order := identityOrder
  narrowRpc := ⟨constantCalls (toBe 32 0), silentCalls⟩
  wideRpc := ⟨unansweredCalls, silentCalls⟩
  arena := loneArena (.v4 densePool)
  targets := [(0, 1)]
  wordRange := 10
  overlayFits := Nat.zero_le _
  nodup_ids := List.nodup_singleton 1

variable (keccak256 : List Byte → BitVec 256)

lemma wordTicks_zero (word spacing : ℤ) : wordTicks word spacing 0#256 = [] := by
  rw [List.eq_nil_iff_forall_not_mem]
  intro t ht
  rcases mem_wordTicks.mp ht with ⟨bit, -, hbit, -⟩
  rw [BitVec.getLsbD_zero] at hbit
  cases hbit

/-- Words that are zero or without an answer have no ticks to read. -/
lemma queuedReads_eq_nil {κ : Type} {windows : List (PoolWindow κ)}
    (h : ∀ window ∈ windows, ∀ offset, ∀ bitmap, window.words offset = some bitmap → bitmap = 0) :
    queuedReads windows = [] := by
  have hwanted : wantedReads windows = [] := by
    rw [wantedReads, List.flatMap_eq_nil_iff]
    intro window hwindow
    rw [List.map_eq_nil_iff, PoolWindow.ticks, List.flatMap_eq_nil_iff]
    intro offset _
    cases hword : window.words offset with
    | none => rw [PoolWindow.block, hword]
    | some bitmap =>
        rw [PoolWindow.block, hword, h window hwindow offset bitmap hword]
        exact wordTicks_zero _ _
  rw [queuedReads, hwanted, List.take_nil]

lemma answer_constantCalls (reply : List Byte) (items : List MulticallItem) (k : ℕ) :
    ((constantCalls reply).answers items)[k]?.join = items[k]?.map fun _ => reply := by
  have hanswers : (constantCalls reply).answers items = items.map fun _ => some reply := rfl
  rw [hanswers, List.getElem?_map]
  cases items[k]? with
  | none => rfl
  | some item => rfl

lemma answer_unansweredCalls (items : List MulticallItem) (k : ℕ) :
    (unansweredCalls.answers items)[k]?.join = none := by
  have hanswers : unansweredCalls.answers items = items.map fun _ => none := rfl
  rw [hanswers, List.getElem?_map]
  cases items[k]? with
  | none => rfl
  | some item => rfl

lemma decodeAbiWord_zero : decodeAbiWord (toBe 32 0) = some 0#256 := decodeAbiWord_toBe 0#256

lemma narrow_silentV4 :
    queuedReads (silentV4 keccak256).narrow.windows = [] ∧
      ∀ window ∈ (silentV4 keccak256).narrow.windows, window.Answered := by
  constructor
  · refine queuedReads_eq_nil fun window hwindow offset bitmap hword => ?_
    rcases List.mem_map.mp hwindow with ⟨span, -, rfl⟩
    simp only [v4Window, Span.answer, silentV4, answer_constantCalls, Option.bind_eq_some_iff] at hword
    rcases hword with ⟨reply, hreply, hbitmap⟩
    rcases Option.map_eq_some_iff.mp hreply with ⟨item, -, rfl⟩
    rw [decodeAbiWord_zero, Option.some_inj] at hbitmap
    exact hbitmap.symm
  · intro window hwindow offset hoffset
    rcases mem_v4Windows hwindow with ⟨target, -, s, -, hof⟩
    rcases hof.words offset hoffset with ⟨k, hk, hword⟩
    rw [hword, silentV4, answer_constantCalls]
    rw [silentV4] at hk
    rw [hk, Option.map_some, Option.bind_some, decodeAbiWord_zero]
    rfl

lemma narrowNothing_silentV4 : (silentV4 keccak256).narrow.ShowsNothing v4Reader 0 := by
  rw [Wave.ShowsNothing, V4Pass.narrow, entries_v4Wave_of_nil (narrow_silentV4 keccak256).1]
  rfl

lemma wideTargets_silentV4 : (silentV4 keccak256).wideTargets = [(0, 1)] := by
  have hstill : stillTicklessV4 (silentV4 keccak256).arena (silentV4 keccak256).targets = [(0, 1)] := rfl
  rw [V4Pass.wideTargets, hstill, List.filter_cons_of_pos, List.filter_nil,
    List.perm_singleton.mp (perm_byLiquidity _ _ _)]
  · rfl
  · exact decide_eq_true (narrowNothing_silentV4 keccak256)

lemma wide_silentV4 : queuedReads (silentV4 keccak256).wide.windows = [] ∧
    (silentV4 keccak256).wide.WordGap v4Reader 0 := by
  constructor
  · refine queuedReads_eq_nil fun window hwindow offset bitmap hword => ?_
    rcases List.mem_map.mp hwindow with ⟨span, -, rfl⟩
    simp only [v4Window, Span.answer, silentV4, answer_unansweredCalls, Option.bind_none] at hword
    cases hword
  · have hmem : ((0, 1) : PoolIndex × PoolId) ∈ (silentV4 keccak256).wideTargets := by
      rw [wideTargets_silentV4]
      exact List.mem_singleton_self _
    have hstate : clPool .v4 (silentV4 keccak256).arena 0 = some densePool := rfl
    rcases exists_v4Window keccak256 identityOrder (wideRange 10) hmem hstate
      (unansweredCalls.answers (batch (v4Requests keccak256 (silentV4 keccak256).arena (wideRange 10)
        (silentV4 keccak256).wideTargets))) with ⟨window, hwindow, hof⟩
    refine ⟨window, hwindow, ?_, fun hanswered => ?_⟩
    · rw [hof.owner]
      rfl
    · have hpos : 0 < window.wordCount := by
        rw [hof.wordCount]
        decide
      rcases hof.words 0 hpos with ⟨k, -, hword⟩
      have hsome := hanswered 0 hpos
      rw [hword, answer_unansweredCalls] at hsome
      cases hsome

lemma seenEmpty_silentV4 : (silentV4 keccak256).SeenEmpty (0, 1) true where
  listed := List.mem_singleton_self _
  widens := rfl
  range := by
    show (0 : ℤ) ≤ 10
    decide
  clear :=
    { batches := by
        rw [v4WaveFailed_of_nil (narrow_silentV4 keccak256).1]
        exact not_failed_of_ok rfl
      budget := not_overruns_of_queued_nil (narrow_silentV4 keccak256).1
      words := (narrow_silentV4 keccak256).2 }
  tickless := ⟨densePool, rfl, rfl⟩
  narrow := narrowNothing_silentV4 keccak256
  wide _ := by
    refine ⟨?_, ?_, ?_⟩
    · rw [wideTargets_silentV4]
      exact List.mem_singleton_self _
    · rw [V4Pass.WideClear, v4WaveFailed_of_nil (wide_silentV4 keccak256).1]
      exact not_failed_of_ok rfl
    · rw [Wave.ShowsNothing, V4Pass.wide, entries_v4Wave_of_nil (wide_silentV4 keccak256).1]
      rfl

/-- A V3 pool is put on the long cooldown although its wide words were never read, and so is a V4 pool. -/
theorem silent_wave_armed :
    ((silentV3.run true).ArmsEmpty 1 ∧
        ¬∃ i, silentV3.arena.inner.addressToPool 1 = some i ∧ silentV3.ProvedEmpty 1 i) ∧
      ∀ keccak256, ((silentV4 keccak256).run true).ArmsEmpty 1 ∧
        ¬∃ i, (i, 1) ∈ (silentV4 keccak256).targets ∧ (silentV4 keccak256).ProvedEmpty (i, 1) := by
  refine ⟨⟨V3Pass.armsEmpty_iff.mpr ⟨0, seenEmpty_silentV3⟩, ?_⟩, fun keccak256 =>
    ⟨V4Pass.armsEmpty_iff.mpr ⟨0, seenEmpty_silentV4 keccak256⟩, ?_⟩⟩
  · rintro ⟨i, hslot, hproved⟩
    cases hslot
    exact (V3Pass.provedEmpty_iff seenEmpty_silentV3).mp hproved silentGap_silentV3
  · rintro ⟨i, hlisted, hproved⟩
    cases List.mem_singleton.mp hlisted
    have hrange : (10 : ℤ) < 48 := by decide
    exact (V4Pass.provedEmpty_iff (seenEmpty_silentV4 keccak256)).mp hproved
      (Or.inr ⟨hrange, Or.inl (wide_silentV4 keccak256).2⟩)

end Example

end PolygonArb

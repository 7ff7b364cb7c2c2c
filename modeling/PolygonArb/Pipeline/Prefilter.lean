import PolygonArb.Pipeline.CycleOrder
import PolygonArb.Pipeline.GraphRun
import PolygonArb.Pipeline.HopSim
import PolygonArb.Pipeline.RouteCalls

/-!
# The prefilter of cycles

`prefilter_cycles_by_atomic_sim_with_context_and_diag` of `pipeline/cycle_filter.rs` drops the cycles that fail one
of four gates, simulates the best of the others and keeps three kinds of them: those that clear their gas
up to `maxKeep`, and, up to a rescue cap of its own, those with a profit below their gas and
those without one, in this order.

What a gate, the window or a cap drops is counted, and a kind gives way only to the kinds before it
(`prefilterCycles_accounts`).
-/

namespace PolygonArb

open CompareSort Word

/-- About a quarter of what is kept, for the rescues. -/
def graphNegativeRescueCap (maxKeep : ℕ) : ℕ :=
  if maxKeep = 0 then 0 else min (min (max (maxKeep / 4) 32) 256) maxKeep

/-- The largest 64-bit size. -/
def maxUsize : ℕ := 2 ^ 64 - 1

def prefilterSimWindow (maxKeep total : ℕ) : ℕ := min (min (maxKeep * 2) maxUsize) total

def cycleSpotNegative (c : FoundCycle) : Bool :=
  one18 < c.cycleRatio || (c.cycleRatio = 0 && c.score < 0.0)

/-- Every hop is of a family that is simulated. -/
def isFullySimulableRoute (edges : List Edge) : Bool :=
  edges.all fun e =>
    match e.protocol with
    | .uniswapV2 | .uniswapV3 | .uniswapV4 | .balancerV2 | .curveStable | .curveCrypto | .dodo
    | .woofi => true

def cycleEdgesMatchArenaState (arena : StateArena) (edges : List Edge) : Bool :=
  edges.all fun e =>
    ((arena.poolState e.poolIndex).map fun state => protocolMatchesPoolState e.protocol state).getD false

structure PrefilterDiagnostics where
  mergedIn : ℕ
  prunedNonSimulable : ℕ
  prunedProtocolMismatch : ℕ
  prunedSpotFlat : ℕ
  prunedExecutorBudget : ℕ
  simulable : ℕ
  simWindow : ℕ
  profitKeep : ℕ
  gasRescue : ℕ
  spotRescue : ℕ
  rescueCapDrop : ℕ
  out : ℕ
  deriving DecidableEq

/-- Nothing counted but the input. -/
def PrefilterDiagnostics.start (mergedIn : ℕ) : PrefilterDiagnostics :=
  ⟨mergedIn, 0, 0, 0, 0, 0, 0, 0, 0, 0, 0, 0⟩

inductive PrefilterVerdict
  | keep
  | rescueGas
  | rescueSpot
  deriving DecidableEq

section Gates

variable (arena : StateArena)

/-- A cycle is counted at the first gate it fails, or goes on. -/
def gateCycle (s : PrefilterDiagnostics × List FoundCycle) (c : FoundCycle) :
    PrefilterDiagnostics × List FoundCycle :=
  if cycleSpotNegative c = false then
    ({ s.1 with prunedSpotFlat := s.1.prunedSpotFlat + 1 }, s.2)
  else if isFullySimulableRoute c.edges = false then
    ({ s.1 with prunedNonSimulable := s.1.prunedNonSimulable + 1 }, s.2)
  else if routeFitsExecutor c.edges = false then
    ({ s.1 with prunedExecutorBudget := s.1.prunedExecutorBudget + 1 }, s.2)
  else if cycleEdgesMatchArenaState arena c.edges = false then
    ({ s.1 with prunedProtocolMismatch := s.1.prunedProtocolMismatch + 1 }, s.2)
  else (s.1, s.2 ++ [c])

/-- All four gates. -/
def passesGates (c : FoundCycle) : Bool :=
  cycleSpotNegative c && isFullySimulableRoute c.edges && routeFitsExecutor c.edges &&
    cycleEdgesMatchArenaState arena c.edges

end Gates

/-- The rescues admitted so far. -/
structure RescueState where
  used : ℕ
  diag : PrefilterDiagnostics
  survivors : List FoundCycle

def RescueState.addRescue (isGas : Bool) (s : RescueState) (c : FoundCycle) : RescueState where
  used := s.used + 1
  diag :=
    if isGas then { s.diag with gasRescue := s.diag.gasRescue + 1 }
    else { s.diag with spotRescue := s.diag.spotRescue + 1 }
  survivors := s.survivors ++ [c]

/-- Admit rescues in order and stop at the first one that does not fit. -/
def admitRescues (rescueCap totalCap : ℕ) (isGas : Bool) : List FoundCycle → RescueState → RescueState
  | [], s => s
  | c :: cs, s =>
      if rescueCap ≤ s.used ∨ totalCap ≤ s.survivors.length then s
      else admitRescues rescueCap totalCap isGas cs (s.addRescue isGas c)

/-- The best cycles in the order of execution, as many as are simulated. -/
def simWindowCycles (order : DrainOrder) (simulable : List FoundCycle) (maxKeep : ℕ) : List FoundCycle :=
  ((order.drain simulable).mergeSort fun a b => (compareCycleExecution a b).isLE).take
    (prefilterSimWindow maxKeep simulable.length)

/-- The verdict of a simulated cycle is a parameter. -/
def prefilterCycles (order : DrainOrder) (arena : StateArena) (verdict : FoundCycle → PrefilterVerdict)
    (cycles : List FoundCycle) (maxKeep : ℕ) : List FoundCycle × PrefilterDiagnostics :=
  if maxKeep = 0 ∨ cycles.length = 0 then ([], .start cycles.length)
  else
    let (diag, simulable) := cycles.foldl (gateCycle arena) (.start cycles.length, [])
    let diag := { diag with simulable := simulable.length }
    if simulable.isEmpty then ([], diag)
    else
      let rescueCap := graphNegativeRescueCap maxKeep
      let candidates := simWindowCycles order simulable maxKeep
      let keeps := candidates.filter fun c => verdict c = .keep
      let gasRescues := candidates.filter fun c => verdict c = .rescueGas
      let spotRescues := candidates.filter fun c => verdict c = .rescueSpot
      let totalCap := min (maxKeep + rescueCap) maxUsize
      let keepTake := min keeps.length maxKeep
      let diag :=
        { diag with simWindow := prefilterSimWindow maxKeep simulable.length, profitKeep := keepTake }
      let rescueCandidates := min (gasRescues.length + spotRescues.length) maxUsize
      let s := admitRescues rescueCap totalCap true gasRescues ⟨0, diag, keeps.take keepTake⟩
      let s := admitRescues rescueCap totalCap false spotRescues s
      (s.survivors,
        { s.diag with rescueCapDrop := rescueCandidates - s.used, out := s.survivors.length })

/-! ## Gates -/

def PrefilterDiagnostics.pruned (d : PrefilterDiagnostics) : ℕ :=
  d.prunedSpotFlat + d.prunedNonSimulable + d.prunedExecutorBudget + d.prunedProtocolMismatch

/-- What the gates leave alone. -/
structure GatesFrame (d d' : PrefilterDiagnostics) : Prop where
  mergedIn : d'.mergedIn = d.mergedIn
  profitKeep : d'.profitKeep = d.profitKeep
  gasRescue : d'.gasRescue = d.gasRescue
  spotRescue : d'.spotRescue = d.spotRescue
  rescueCapDrop : d'.rescueCapDrop = d.rescueCapDrop
  out : d'.out = d.out

lemma GatesFrame.trans {d d' d'' : PrefilterDiagnostics} (h : GatesFrame d d') (h' : GatesFrame d' d'') :
    GatesFrame d d'' where
  mergedIn := h'.mergedIn.trans h.mergedIn
  profitKeep := h'.profitKeep.trans h.profitKeep
  gasRescue := h'.gasRescue.trans h.gasRescue
  spotRescue := h'.spotRescue.trans h.spotRescue
  rescueCapDrop := h'.rescueCapDrop.trans h.rescueCapDrop
  out := h'.out.trans h.out

/-- A cycle passes all gates or is counted at one of them. -/
lemma gateCycle_cases (arena : StateArena) (s : PrefilterDiagnostics × List FoundCycle) (c : FoundCycle) :
    GatesFrame s.1 (gateCycle arena s c).1 ∧
      (passesGates arena c = true ∧ gateCycle arena s c = (s.1, s.2 ++ [c]) ∨
        passesGates arena c = false ∧ (gateCycle arena s c).2 = s.2 ∧
          (gateCycle arena s c).1.pruned = s.1.pruned + 1) := by
  rw [gateCycle, passesGates]
  cases hspot : cycleSpotNegative c with
  | false =>
      refine ⟨⟨rfl, rfl, rfl, rfl, rfl, rfl⟩, .inr ⟨rfl, rfl, ?_⟩⟩
      simp only [PrefilterDiagnostics.pruned, if_true]
      omega
  | true =>
      cases hsim : isFullySimulableRoute c.edges with
      | false =>
          refine ⟨⟨rfl, rfl, rfl, rfl, rfl, rfl⟩, .inr ⟨rfl, rfl, ?_⟩⟩
          simp only [PrefilterDiagnostics.pruned, if_true, Bool.true_eq_false, if_false]
          omega
      | true =>
          cases hfits : routeFitsExecutor c.edges with
          | false =>
              refine ⟨⟨rfl, rfl, rfl, rfl, rfl, rfl⟩, .inr ⟨rfl, rfl, ?_⟩⟩
              simp only [PrefilterDiagnostics.pruned, if_true, Bool.true_eq_false, if_false]
              omega
          | true =>
              cases hmatch : cycleEdgesMatchArenaState arena c.edges with
              | false =>
                  refine ⟨⟨rfl, rfl, rfl, rfl, rfl, rfl⟩, .inr ⟨rfl, rfl, ?_⟩⟩
                  simp only [PrefilterDiagnostics.pruned, if_true, Bool.true_eq_false, if_false]
                  omega
              | true => exact ⟨⟨rfl, rfl, rfl, rfl, rfl, rfl⟩, .inl ⟨rfl, rfl⟩⟩

/-- Every cycle is counted at a gate or goes on. -/
lemma foldl_gateCycle (arena : StateArena) (cycles : List FoundCycle)
    (s : PrefilterDiagnostics × List FoundCycle) :
    GatesFrame s.1 (cycles.foldl (gateCycle arena) s).1 ∧
      (cycles.foldl (gateCycle arena) s).2 = s.2 ++ cycles.filter (passesGates arena) ∧
      (cycles.foldl (gateCycle arena) s).1.pruned + (cycles.filter (passesGates arena)).length =
        s.1.pruned + cycles.length := by
  induction cycles generalizing s with
  | nil => exact ⟨⟨rfl, rfl, rfl, rfl, rfl, rfl⟩, by simp, rfl⟩
  | cons c cycles ih =>
      rcases gateCycle_cases arena s c with ⟨hframe, hcase⟩
      rcases ih (gateCycle arena s c) with ⟨hrest, hsim, hcount⟩
      rw [List.foldl_cons]
      refine ⟨hframe.trans hrest, ?_⟩
      rcases hcase with ⟨hpass, heq⟩ | ⟨hpass, hkept, hpruned⟩
      · rw [List.filter_cons_of_pos hpass, List.length_cons, List.length_cons]
        rw [heq] at hsim hcount ⊢
        refine ⟨hsim.trans (by simp), ?_⟩
        dsimp only at hcount
        omega
      · rw [List.filter_cons_of_neg (by simp [hpass]), List.length_cons]
        rw [hkept] at hsim
        rw [hpruned] at hcount
        exact ⟨hsim, by omega⟩

/-! ## Rescues -/

/-- Rescues admitted one after another. -/
def RescueState.addAll (isGas : Bool) (s : RescueState) (cs : List FoundCycle) : RescueState :=
  cs.foldl (RescueState.addRescue isGas) s

/-- The rescues that still fit. -/
def RescueState.room (rescueCap totalCap : ℕ) (s : RescueState) : ℕ :=
  min (rescueCap - s.used) (totalCap - s.survivors.length)

lemma admitRescues_eq (rescueCap totalCap : ℕ) (isGas : Bool) (cs : List FoundCycle) (s : RescueState) :
    admitRescues rescueCap totalCap isGas cs s =
      s.addAll isGas (cs.take (s.room rescueCap totalCap)) := by
  induction cs generalizing s with
  | nil => simp [admitRescues, RescueState.addAll]
  | cons c cs ih =>
      rw [admitRescues]
      split_ifs with hfull
      · have hroom : s.room rescueCap totalCap = 0 := by
          rw [RescueState.room]
          omega
        rw [hroom, List.take_zero]
        rfl
      · have hroom : s.room rescueCap totalCap = (s.addRescue isGas c).room rescueCap totalCap + 1 := by
          simp only [RescueState.room, RescueState.addRescue, List.length_append, List.length_singleton]
          omega
        rw [ih, hroom, List.take_succ_cons]
        rfl

/-- What admitting rescues changes. -/
lemma addAll_eq (isGas : Bool) (cs : List FoundCycle) (s : RescueState) :
    s.addAll isGas cs =
      { used := s.used + cs.length
        diag :=
          if isGas then { s.diag with gasRescue := s.diag.gasRescue + cs.length }
          else { s.diag with spotRescue := s.diag.spotRescue + cs.length }
        survivors := s.survivors ++ cs } := by
  induction cs generalizing s with
  | nil => cases isGas <;> simp [RescueState.addAll]
  | cons c cs ih =>
      have hstep : s.addAll isGas (c :: cs) = (s.addRescue isGas c).addAll isGas cs := rfl
      rw [hstep, ih]
      cases isGas <;> simp [RescueState.addRescue] <;> omega

/-! ## Verdicts -/

section Verdicts

variable (verdict : FoundCycle → PrefilterVerdict)

def withVerdict (v : PrefilterVerdict) (cycles : List FoundCycle) : List FoundCycle :=
  cycles.filter fun c => verdict c = v

lemma length_withVerdict (cycles : List FoundCycle) :
    (withVerdict verdict .keep cycles).length + ((withVerdict verdict .rescueGas cycles).length +
      (withVerdict verdict .rescueSpot cycles).length) = cycles.length := by
  induction cycles with
  | nil => rfl
  | cons c cycles ih =>
      simp only [withVerdict, List.filter_cons, List.length_cons] at ih ⊢
      cases verdict c <;> simp <;> omega

lemma withVerdict_perm (cycles : List FoundCycle) :
    (withVerdict verdict .keep cycles ++ (withVerdict verdict .rescueGas cycles ++
      withVerdict verdict .rescueSpot cycles)).Perm cycles := by
  induction cycles with
  | nil => exact .refl _
  | cons c cycles ih =>
      simp only [withVerdict, List.filter_cons] at ih ⊢
      cases hv : verdict c with
      | keep => simpa using ih
      | rescueGas => simpa using List.perm_middle.trans (ih.cons c)
      | rescueSpot =>
          simp only [reduceCtorEq, decide_false, decide_true, if_true, if_false, Bool.false_eq_true]
          rw [← List.append_assoc]
          rw [← List.append_assoc] at ih
          exact List.perm_middle.trans (ih.cons c)

variable {verdict}

/-- A beginning of the cycles with a verdict has no others. -/
lemma verdict_of_mem_take {v : PrefilterVerdict} {cycles : List FoundCycle} {n : ℕ} {c : FoundCycle}
    (h : c ∈ (withVerdict verdict v cycles).take n) : verdict c = v := by
  have hmem := (List.mem_filter.mp (List.mem_of_mem_take h)).2
  rw [decide_eq_true_eq] at hmem
  exact hmem

end Verdicts

/-- What the prefilter keeps of its window: the first keeps, then the first gas rescues, then, when all of
these fit, the first spot rescues. -/
structure Admitted (verdict : FoundCycle → PrefilterVerdict) (window : List FoundCycle)
    (maxKeep gas spot : ℕ) (out : List FoundCycle) (d : PrefilterDiagnostics) : Prop where
  survivors : out = (withVerdict verdict .keep window).take maxKeep ++
    ((withVerdict verdict .rescueGas window).take gas ++ (withVerdict verdict .rescueSpot window).take spot)
  gasFirst : gas < (withVerdict verdict .rescueGas window).length → spot = 0
  rescue_le : ((withVerdict verdict .rescueGas window).take gas).length +
    ((withVerdict verdict .rescueSpot window).take spot).length ≤ graphNegativeRescueCap maxKeep
  profitKeep : d.profitKeep = ((withVerdict verdict .keep window).take maxKeep).length
  gasRescue : d.gasRescue = ((withVerdict verdict .rescueGas window).take gas).length
  spotRescue : d.spotRescue = ((withVerdict verdict .rescueSpot window).take spot).length
  dropped : d.rescueCapDrop + (d.gasRescue + d.spotRescue) =
    (withVerdict verdict .rescueGas window).length + (withVerdict verdict .rescueSpot window).length
  out : d.out = out.length

lemma length_simWindowCycles_le (order : DrainOrder) (simulable : List FoundCycle) (maxKeep : ℕ) :
    (simWindowCycles order simulable maxKeep).length ≤ maxUsize := by
  rw [simWindowCycles, prefilterSimWindow]
  exact (List.length_take_le _ _).trans (by omega)

/-- What the second kind of rescues has left over: nothing while the first does not fit, and never
more than the cap. -/
lemma rooms_le {cap total keeps gas spot taken rescues : ℕ} (hgas : gas = min cap (total - keeps))
    (hspot : spot = min (cap - taken) (total - (keeps + taken))) (htaken : taken = min gas rescues) :
    (gas < rescues → spot = 0) ∧ taken + spot ≤ cap := by
  omega

/-- The two passes over the rescues. -/
lemma admitted_of_rescues (verdict : FoundCycle → PrefilterVerdict) {window : List FoundCycle}
    (hwindow : window.length ≤ maxUsize) (maxKeep totalCap : ℕ) {d : PrefilterDiagnostics}
    (hgas : d.gasRescue = 0) (hspot : d.spotRescue = 0)
    (hkeep : d.profitKeep = min (withVerdict verdict .keep window).length maxKeep) :
    let s := admitRescues (graphNegativeRescueCap maxKeep) totalCap false
      (withVerdict verdict .rescueSpot window)
      (admitRescues (graphNegativeRescueCap maxKeep) totalCap true (withVerdict verdict .rescueGas window)
        ⟨0, d, (withVerdict verdict .keep window).take
          (min (withVerdict verdict .keep window).length maxKeep)⟩)
    ∃ gas spot, Admitted verdict window maxKeep gas spot s.survivors
      { s.diag with
        rescueCapDrop := min ((withVerdict verdict .rescueGas window).length +
          (withVerdict verdict .rescueSpot window).length) maxUsize - s.used
        out := s.survivors.length } ∧
      s.diag.mergedIn = d.mergedIn ∧ s.diag.simulable = d.simulable ∧ s.diag.pruned = d.pruned := by
  intro s
  have hkeeps : (withVerdict verdict .keep window).take
      (min (withVerdict verdict .keep window).length maxKeep) =
        (withVerdict verdict .keep window).take maxKeep := by
    rw [min_comm, ← List.take_eq_take_min]
  let s₀ : RescueState := ⟨0, d, (withVerdict verdict .keep window).take
    (min (withVerdict verdict .keep window).length maxKeep)⟩
  let gas := s₀.room (graphNegativeRescueCap maxKeep) totalCap
  let s₁ := s₀.addAll true ((withVerdict verdict .rescueGas window).take gas)
  let spot := s₁.room (graphNegativeRescueCap maxKeep) totalCap
  have hs₁ : s₁ = _ := addAll_eq true _ s₀
  have hs : s = s₁.addAll false ((withVerdict verdict .rescueSpot window).take spot) := by
    simp only [s, admitRescues_eq]
    rfl
  rw [addAll_eq] at hs
  simp only [if_true] at hs₁
  simp only [Bool.false_eq_true, if_false] at hs
  have hgasRoom : gas = min (graphNegativeRescueCap maxKeep)
      (totalCap - ((withVerdict verdict .keep window).take maxKeep).length) := by
    simp only [gas, s₀, RescueState.room, hkeeps, Nat.sub_zero]
  have hspotRoom : spot = min
      (graphNegativeRescueCap maxKeep - ((withVerdict verdict .rescueGas window).take gas).length)
      (totalCap - (((withVerdict verdict .keep window).take maxKeep).length +
        ((withVerdict verdict .rescueGas window).take gas).length)) := by
    simp only [spot, RescueState.room, hs₁, s₀, hkeeps, Nat.zero_add, List.length_append]
  rcases rooms_le hgasRoom hspotRoom (List.length_take) with ⟨hfirst, hcap⟩
  have hgasTake := List.length_take_le' gas (withVerdict verdict .rescueGas window)
  have hspotTake := List.length_take_le' spot (withVerdict verdict .rescueSpot window)
  have hspotLe := List.length_take_le spot (withVerdict verdict .rescueSpot window)
  have hfits : (withVerdict verdict .rescueGas window).length +
      (withVerdict verdict .rescueSpot window).length ≤ maxUsize :=
    (Nat.le_add_left _ _).trans ((length_withVerdict verdict window).trans_le hwindow)
  refine ⟨gas, spot, ⟨?_, hfirst, (Nat.add_le_add_left hspotLe _).trans hcap, ?_, ?_, ?_, ?_, rfl⟩, ?_⟩
  · rw [hs, hs₁]
    simp only [s₀, hkeeps, List.append_assoc]
  · rw [hs, hs₁]
    simp only [s₀, hkeep, List.length_take, Nat.min_comm]
  · rw [hs, hs₁]
    simp only [s₀, hgas, Nat.zero_add]
  · rw [hs, hs₁]
    simp only [s₀, hspot, Nat.zero_add]
  · rw [hs, hs₁]
    simp only [s₀, hgas, hspot, Nat.zero_add, min_eq_left hfits]
    exact Nat.sub_add_cancel (Nat.add_le_add hgasTake hspotTake)
  · rw [hs, hs₁]
    exact ⟨rfl, rfl, rfl⟩

/-! ## The account -/

section Account

variable (order : DrainOrder) (arena : StateArena) (verdict : FoundCycle → PrefilterVerdict)
  (cycles : List FoundCycle) (maxKeep : ℕ)

/-- The cycles the prefilter simulates. -/
def prefilterWindow : List FoundCycle :=
  simWindowCycles order (cycles.filter (passesGates arena)) maxKeep

lemma prefilterWindow_subperm :
    (prefilterWindow order arena cycles maxKeep).Subperm (cycles.filter (passesGates arena)) :=
  (List.take_sublist _ _).subperm.trans ((List.mergeSort_perm _ _).trans (order.perm _)).subperm

/-- The account of a prefilter run. -/
structure PrefilterAccount (out : List FoundCycle) (d : PrefilterDiagnostics) : Prop where
  mergedIn : d.mergedIn = cycles.length
  gates : d.mergedIn = d.pruned + d.simulable
  simulable : d.simulable = (cycles.filter (passesGates arena)).length
  survivors : out.Subperm (cycles.filter (passesGates arena))
  out_eq : d.out = out.length ∧ d.out = d.profitKeep + d.gasRescue + d.spotRescue
  kinds : d.profitKeep = (out.countP fun c => verdict c = .keep) ∧
    d.gasRescue = (out.countP fun c => verdict c = .rescueGas) ∧
    d.spotRescue = out.countP fun c => verdict c = .rescueSpot
  profitKeep_le : d.profitKeep ≤ maxKeep
  rescue_le : d.gasRescue + d.spotRescue ≤ graphNegativeRescueCap maxKeep
  keepDropped : ∀ c, out.count c < (prefilterWindow order arena cycles maxKeep).count c →
    verdict c = .keep → (out.countP fun c => verdict c = .keep) = maxKeep
  gasDropped : ∀ c, out.count c < (prefilterWindow order arena cycles maxKeep).count c →
    verdict c = .rescueGas → ∀ c' ∈ out, verdict c' ≠ .rescueSpot
  rescuesDropped : d.rescueCapDrop + (out.countP fun c => verdict c ≠ .keep) =
    (prefilterWindow order arena cycles maxKeep).countP fun c => verdict c ≠ .keep

variable {order arena verdict cycles maxKeep}

/-- Nothing to choose from. -/
lemma admitted_nil (maxKeep : ℕ) {d : PrefilterDiagnostics} (hprofit : d.profitKeep = 0)
    (hgas : d.gasRescue = 0) (hspot : d.spotRescue = 0) (hdrop : d.rescueCapDrop = 0) (hout : d.out = 0) :
    Admitted verdict [] maxKeep 0 0 [] d where
  survivors := by simp [withVerdict]
  gasFirst := fun _ => rfl
  rescue_le := by simp
  profitKeep := by simp [withVerdict, hprofit]
  gasRescue := hgas
  spotRescue := hspot
  dropped := by simp [withVerdict, hgas, hspot, hdrop]
  out := hout

/-- The survivors are admitted from the window, and every other cycle is counted before it. -/
lemma exists_admitted (order : DrainOrder) (arena : StateArena)
    (verdict : FoundCycle → PrefilterVerdict) (cycles : List FoundCycle) (hkeep : 0 < maxKeep) :
    ∃ gas spot, Admitted verdict (prefilterWindow order arena cycles maxKeep) maxKeep gas spot
        (prefilterCycles order arena verdict cycles maxKeep).1
        (prefilterCycles order arena verdict cycles maxKeep).2 ∧
      (prefilterCycles order arena verdict cycles maxKeep).2.mergedIn = cycles.length ∧
      (prefilterCycles order arena verdict cycles maxKeep).2.simulable =
        (cycles.filter (passesGates arena)).length ∧
      (prefilterCycles order arena verdict cycles maxKeep).2.pruned +
        (cycles.filter (passesGates arena)).length = cycles.length := by
  rcases foldl_gateCycle arena cycles (.start cycles.length, []) with ⟨hframe, hsim, hcount⟩
  rw [List.nil_append] at hsim
  rw [prefilterCycles]
  by_cases hempty : cycles.length = 0
  · obtain rfl := List.eq_nil_of_length_eq_zero hempty
    have hwindow : prefilterWindow order arena [] maxKeep = [] := by
      simp [prefilterWindow, simWindowCycles, prefilterSimWindow]
    rw [if_pos (.inr hempty), hwindow]
    exact ⟨0, 0, admitted_nil maxKeep rfl rfl rfl rfl rfl, rfl, rfl, rfl⟩
  · rw [if_neg (by omega)]
    rcases hloop : cycles.foldl (gateCycle arena) (.start cycles.length, []) with ⟨d, simulable⟩
    rw [hloop] at hframe hsim hcount
    dsimp only at hsim hcount hframe ⊢
    subst hsim
    split_ifs with hnone
    · have hwindow : prefilterWindow order arena cycles maxKeep = [] := by
        simp [prefilterWindow, simWindowCycles, prefilterSimWindow, List.isEmpty_iff.mp hnone]
      rw [hwindow]
      exact ⟨0, 0, admitted_nil maxKeep hframe.profitKeep hframe.gasRescue hframe.spotRescue
        hframe.rescueCapDrop hframe.out, hframe.mergedIn, rfl, hcount.trans (Nat.zero_add _)⟩
    · rcases admitted_of_rescues verdict (length_simWindowCycles_le order _ maxKeep) maxKeep
        (min (maxKeep + graphNegativeRescueCap maxKeep) maxUsize)
        (d := { d with
          simulable := (cycles.filter (passesGates arena)).length
          simWindow := prefilterSimWindow maxKeep (cycles.filter (passesGates arena)).length
          profitKeep := min (withVerdict verdict .keep
            (prefilterWindow order arena cycles maxKeep)).length maxKeep })
        hframe.gasRescue hframe.spotRescue rfl with ⟨gas, spot, hadmitted, hmerged, hsimulable, hpruned⟩
      exact ⟨gas, spot, hadmitted, hmerged.trans hframe.mergedIn, hsimulable,
        (congrArg (· + _) hpruned).trans (hcount.trans (Nat.zero_add _))⟩

section Admitted

variable {window out : List FoundCycle} {gas spot : ℕ} {d : PrefilterDiagnostics}

/-- The cycles taken from one verdict, counted by verdict. -/
lemma countP_take (v : PrefilterVerdict) (p : PrefilterVerdict → Bool) (n : ℕ) :
    ((withVerdict verdict v window).take n).countP (fun c => p (verdict c)) =
      if p v then ((withVerdict verdict v window).take n).length else 0 := by
  split_ifs with hp
  · rw [List.countP_eq_length]
    intro c hc
    rw [verdict_of_mem_take hc]
    exact hp
  · rw [List.countP_eq_zero]
    intro c hc
    rw [verdict_of_mem_take hc]
    exact hp

/-- The survivors, counted by verdict. -/
lemma Admitted.countP (h : Admitted verdict window maxKeep gas spot out d)
    (p : PrefilterVerdict → Bool) :
    out.countP (fun c => p (verdict c)) =
      (if p .keep then d.profitKeep else 0) +
        ((if p .rescueGas then d.gasRescue else 0) + if p .rescueSpot then d.spotRescue else 0) := by
  rw [h.survivors, List.countP_append, List.countP_append, countP_take, countP_take, countP_take,
    h.profitKeep, h.gasRescue, h.spotRescue]

/-- A cycle of the window that is not taken is behind the ones taken of its verdict. -/
lemma lt_length_of_count_lt {v : PrefilterVerdict} {n : ℕ} {c : FoundCycle} (hv : verdict c = v)
    (hle : ((withVerdict verdict v window).take n).count c ≤ out.count c)
    (hlt : out.count c < window.count c) : n < (withVerdict verdict v window).length := by
  by_contra hall
  have hcount : (withVerdict verdict v window).count c = window.count c :=
    List.count_filter (by simp [hv])
  rw [List.take_of_length_le (not_lt.mp hall), hcount] at hle
  omega

lemma Admitted.sublist_count (h : Admitted verdict window maxKeep gas spot out d) (c : FoundCycle) :
    ((withVerdict verdict .keep window).take maxKeep).count c ≤ out.count c ∧
      ((withVerdict verdict .rescueGas window).take gas).count c ≤ out.count c := by
  rw [h.survivors, List.count_append, List.count_append]
  omega

/-- The survivors are cycles of the window. -/
lemma Admitted.subperm (h : Admitted verdict window maxKeep gas spot out d) : out.Subperm window := by
  rw [h.survivors]
  refine List.Subperm.trans ?_ (withVerdict_perm verdict window).subperm
  exact ((List.take_sublist _ _).append ((List.take_sublist _ _).append (List.take_sublist _ _))).subperm

end Admitted

/-- The rescues of the window, counted. -/
lemma countP_rescues (window : List FoundCycle) :
    (window.countP fun c => verdict c ≠ .keep) =
      (withVerdict verdict .rescueGas window).length +
        (withVerdict verdict .rescueSpot window).length := by
  have hall := length_withVerdict verdict window
  have hsplit := List.length_eq_countP_add_countP (fun c => decide (verdict c = .keep)) (l := window)
  rw [withVerdict, ← List.countP_eq_length_filter] at hall
  simp only [decide_eq_true_eq, ne_eq] at hsplit ⊢
  omega

/-- Every cycle is counted once, and a cap drops a cycle of the window only for the kinds before it. -/
theorem prefilterCycles_accounts (order : DrainOrder) (arena : StateArena)
    (verdict : FoundCycle → PrefilterVerdict) (cycles : List FoundCycle) (maxKeep : ℕ)
    (hkeep : 0 < maxKeep) :
    PrefilterAccount order arena verdict cycles maxKeep
      (prefilterCycles order arena verdict cycles maxKeep).1
      (prefilterCycles order arena verdict cycles maxKeep).2 := by
  rcases exists_admitted order arena verdict cycles hkeep with
    ⟨gas, spot, hadmitted, hmerged, hsimulable, hpruned⟩
  generalize (prefilterCycles order arena verdict cycles maxKeep).1 = out at hadmitted ⊢
  generalize (prefilterCycles order arena verdict cycles maxKeep).2 = d at hadmitted hmerged hsimulable hpruned ⊢
  have hkeeps := hadmitted.countP fun v => decide (v = .keep)
  have hgas := hadmitted.countP fun v => decide (v = .rescueGas)
  have hspots := hadmitted.countP fun v => decide (v = .rescueSpot)
  have hrescues := hadmitted.countP fun v => decide (v ≠ .keep)
  have hdropped := hadmitted.dropped
  rw [← countP_rescues] at hdropped
  simp at hkeeps hgas hspots hrescues
  have hlength := hadmitted.out
  have hsplit := congrArg List.length hadmitted.survivors
  simp only [List.length_append, ← hadmitted.profitKeep, ← hadmitted.gasRescue,
    ← hadmitted.spotRescue] at hsplit
  refine ⟨hmerged, by omega, hsimulable,
    hadmitted.subperm.trans (prefilterWindow_subperm order arena cycles maxKeep), ⟨hlength, by omega⟩,
    ⟨hkeeps.symm, hgas.symm, hspots.symm⟩, ?_, ?_, ?_, ?_, ?_⟩
  · rw [hadmitted.profitKeep]
    exact List.length_take_le _ _
  · rw [hadmitted.gasRescue, hadmitted.spotRescue]
    exact hadmitted.rescue_le
  · intro c hlt hv
    have hmore := lt_length_of_count_lt hv (hadmitted.sublist_count c).1 hlt
    rw [hkeeps, hadmitted.profitKeep, List.length_take]
    omega
  · intro c hlt hv c' hc'
    have hmore := lt_length_of_count_lt hv (hadmitted.sublist_count c).2 hlt
    have hnone : d.spotRescue = 0 := by
      rw [hadmitted.spotRescue, hadmitted.gasFirst hmore]
      rfl
    rw [hnone, List.countP_eq_zero] at hspots
    simpa using hspots c' hc'
  · simp only [ne_eq, decide_not] at hdropped ⊢
    omega

end Account

/-- A cycle that is profitable at the spot price. -/
def spotCycle : FoundCycle where
  startToken := 0
  edges := [⟨0, 0, 1, 0, 1, .uniswapV2, 30, true⟩, ⟨1, 1, 0, 1, 0, .uniswapV2, 30, false⟩]
  hopCount := 2
  logWeight := -0.1
  cumulativeFeeBps := 60
  score := -0.1
  cycleRatio := 1100000000000000000#256

/-- One that is not. -/
def flatCycle : FoundCycle := { spotCycle with cycleRatio := 900000000000000000#256 }

/-- The two pairs of the cycle. -/
def spotArena : StateArena :=
  poolArena [1, 2] [9, 10] [pairPool 1000000000000000000000 1000000000000000000000,
    pairPool 1000000000000000000000 1000000000000000000000]

/-- Of six cycles one is flat, four of the others are simulated, and two of these are rescued. -/
theorem prefilterCycles_accounts_spot :
    let cycles := flatCycle :: List.replicate 5 spotCycle
    let run := prefilterCycles ⟨id, perm_id⟩ spotArena (fun _ => .rescueGas) cycles 2
    PrefilterAccount ⟨id, perm_id⟩ spotArena (fun _ => .rescueGas) cycles 2 run.1 run.2 ∧
      run = ([spotCycle, spotCycle], ⟨6, 0, 0, 1, 0, 5, 4, 0, 2, 0, 2, 2⟩) := by
  intro cycles run
  refine ⟨prefilterCycles_accounts _ _ _ cycles 2 (by decide), ?_⟩
  have hgates : cycles.foldl (gateCycle spotArena) (.start 6, []) =
      (⟨6, 0, 0, 1, 0, 0, 0, 0, 0, 0, 0, 0⟩, List.replicate 5 spotCycle) := rfl
  have hwindow : simWindowCycles ⟨id, perm_id⟩ (List.replicate 5 spotCycle) 2 =
      List.replicate 4 spotCycle := by
    have hsorted := List.perm_replicate.mp (List.mergeSort_perm (List.replicate 5 spotCycle)
      fun a b => (compareCycleExecution a b).isLE)
    exact congrArg (List.take 4) hsorted
  show prefilterCycles _ _ _ cycles 2 = _
  rw [prefilterCycles, if_neg (by simp [cycles]), show cycles.length = 6 from rfl, hgates]
  dsimp only
  rw [hwindow]
  rfl

end PolygonArb

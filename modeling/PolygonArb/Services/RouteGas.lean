import PolygonArb.Core.Types
import PolygonArb.Lib.RecencyMap

/-!
# The route gas history

`record_route_gas` of `services/execution/gas_oracle.rs`: the gas a dry run or a receipt showed for an
exact ordered route, kept for the routes recorded last.  A route that is there gets three quarters of what
was stored and one quarter of the new amount; a new one takes the place of the oldest.
-/

namespace PolygonArb

open RecencyMap

/-- `ROUTE_GAS_HISTORY`. -/
def routeGasHistory : ℕ := 256

/-- An amount of gas (`u32`). -/
abbrev GasUnits := Fin (2 ^ 32)

abbrev RouteGasHistory := RecencyMap (List Edge) GasUnits

/-- 75% of the entry, 25% of the observation: `u32::try_from(..).unwrap_or(u32::MAX).max(1)`. -/
def blendGas (entry gas : GasUnits) : GasUnits :=
  let blended := (min (entry.val * 3) (2 ^ 64 - 1) + gas.val) / 4
  max (if fits : blended < 2 ^ 32 then ⟨blended, fits⟩ else Fin.last _) 1

def recordRouteGas (hist : RouteGasHistory) (edges : List Edge) (gas : GasUnits) : RouteGasHistory :=
  if gas = 0 then hist else hist.record routeGasHistory blendGas edges gas

/-- Calls in order, from the empty history. -/
def routeGasAfter (calls : List (List Edge × GasUnits)) : RouteGasHistory :=
  calls.foldl (fun hist call => recordRouteGas hist call.1 call.2) empty

/-- The observations that count, newest first. -/
def gasObservations (calls : List (List Edge × GasUnits)) : List (List Edge × GasUnits) :=
  (calls.filter (·.2 ≠ 0)).reverse

lemma routeGasAfter_eq (calls : List (List Edge × GasUnits)) :
    routeGasAfter calls = recordAll routeGasHistory blendGas (calls.filter (·.2 ≠ 0)) := by
  rw [routeGasAfter, recordAll, List.foldl_filter]
  congr
  funext hist call
  simp [recordRouteGas]

/-- The average rounds down and never leaves the two amounts; the floor of one is below any
observation. -/
lemma blendGas_within {gas : GasUnits} (hgas : gas ≠ 0) : BlendsWithin blendGas gas := by
  intro entry
  have hpos : 0 < gas.val := Fin.pos_iff_ne_zero.mpr hgas
  have hentry := entry.isLt
  have hless := gas.isLt
  have hmin : min (entry.val * 3) (2 ^ 64 - 1) = entry.val * 3 := by omega
  have hfits : (entry.val * 3 + gas.val) / 4 < 2 ^ 32 := by omega
  have hval : (blendGas entry gas).val = max ((entry.val * 3 + gas.val) / 4) 1 := by
    simp only [blendGas, hmin, hfits, dif_pos]
    rw [Fin.coe_max]
    rfl
  rw [Fin.le_def, Fin.le_def, Fin.coe_min, Fin.coe_max, hval]
  omega

/-- After any calls the keys are the queue; the queue is the last routes recorded, each once, oldest
first; only its head is ever lost; and a stored amount lies between two observations made since the
route came in. -/
theorem routeGas_representation (calls : List (List Edge × GasUnits)) :
    let hist := routeGasAfter calls
    let log := gasObservations calls
    (∀ route, (hist.map route).isSome = true ↔ route ∈ hist.order) ∧
      hist.order.Nodup ∧ hist.order.length ≤ routeGasHistory ∧
      hist.order = residents routeGasHistory (log.map Prod.fst) ∧
      (∀ edges gas lost, lost ∈ hist.order → lost ∉ (recordRouteGas hist edges gas).order →
        hist.order.head? = some lost) ∧
      ∀ route stored, hist.map route = some stored →
        (∃ least ∈ sinceInserted routeGasHistory log route, least ≤ stored) ∧
          ∃ most ∈ sinceInserted routeGasHistory log route, stored ≤ most := by
  intro hist log
  have htracks : Tracks routeGasHistory hist log := by
    show Tracks routeGasHistory (routeGasAfter calls) (gasObservations calls)
    rw [routeGasAfter_eq]
    refine tracks_recordAll 255 fun call hcall => blendGas_within ?_
    simpa using (List.mem_filter.mp hcall).2
  refine ⟨htracks.keys, ?_, ?_, htracks.order, ?_, htracks.within⟩
  · rw [htracks.order]
    exact nodup_residents _ _
  · rw [htracks.order]
    exact length_residents_le _ _
  · intro edges gas lost hmem hlost
    rw [recordRouteGas] at hlost
    split_ifs at hlost with hzero
    · exact absurd hmem hlost
    · exact htracks.head_of_lost hmem hlost

end PolygonArb

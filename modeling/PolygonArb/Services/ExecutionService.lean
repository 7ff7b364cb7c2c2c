import Mathlib.Algebra.BigOperators.Group.List.Basic
import Mathlib.Algebra.Order.Group.Int
import PolygonArb.Services.Nonce
import PolygonArb.Services.Risk
import PolygonArb.Services.RouteGas
import PolygonArb.Services.RouteLearning

/-!
# The execution service

The state of `ExecutionService` and the bookkeeping of `services/execution/service/pnl.rs`.  A confirmed
trade, a reverted one and a cancelled one are booked as a profit and a gas cost; the balance of the day
starts over when the date changes, and a balance below the configured loss takes the service out of use
for an hour.

`dailyLoss_breaker_iff`: after any bookings the balances are the sums of what was booked, and the service is
out until an hour after the last booking that left the day's balance at the limit.
-/

namespace PolygonArb

open Word

/-- `i128` saturates. -/
def clampI128 (x : ℤ) : ℤ := max (-2 ^ 127) (min x (2 ^ 127 - 1))

structure PnlState where
  total : ℤ
  daily : ℤ
  dailyUtcDay : ℕ
  deriving DecidableEq

namespace PnlState

def new : PnlState := ⟨0, 0, 0⟩

def maybeRollDaily (pnl : PnlState) (today : ℕ) : PnlState :=
  if pnl.dailyUtcDay = today then pnl else { pnl with daily := 0, dailyUtcDay := today }

/-- `record_profit`, and `record_loss` for a negative net. -/
def record (pnl : PnlState) (net : ℤ) (today : ℕ) : PnlState :=
  let pnl := pnl.maybeRollDaily today
  { pnl with total := clampI128 (pnl.total + net), daily := clampI128 (pnl.daily + net) }

end PnlState

/-- What the gas oracle has learned: the gas of routes, and the scale of unseen ones (`u32`). -/
structure GasLearning where
  routeGas : RouteGasHistory
  simScaleBps : ℕ

structure ExecutionService where
  lastSubmit : List Edge → Option Instant
  lastGlobalSubmit : Option Instant
  /-- When the operator's nonces were read, the latest and the pending one. -/
  mempoolNonceCache : Option (Instant × Nonce × Nonce)
  risk : RiskState
  nonce : Option NonceManager
  pnl : PnlState
  totalTrades : ℕ
  totalLosses : ℕ
  consecutiveFails : ℕ
  routeStats : RouteLearning
  gas : GasLearning

namespace ExecutionService

variable (svc : ExecutionService)

/-- Profits and costs beyond an `i128` count as its maximum. -/
def capI128 (x : U256) : ℤ := min x.toNat (2 ^ 127 - 1)

/-- The counters and the balance that `record_realized` keeps before it looks at the limit. -/
def bookRealized (profitWei gasCostWei : U256) (today : ℕ) : ExecutionService :=
  if gasCostWei ≤ profitWei then
    let p := capI128 (saturatingSub profitWei gasCostWei)
    if 0 < p then
      { svc with
        consecutiveFails := 0, totalTrades := svc.totalTrades + 1, pnl := svc.pnl.record p today }
    else { svc with consecutiveFails := 0, pnl := svc.pnl.maybeRollDaily today }
  else
    let loss := capI128 (saturatingSub gasCostWei profitWei)
    { svc with
      consecutiveFails := svc.consecutiveFails + 1
      totalLosses := svc.totalLosses + 1
      pnl := svc.pnl.record (-loss) today }

/-- `record_realized`, with the date and the time of the booking. -/
def recordRealized (profitWei gasCostWei : U256) (today : ℕ) (clock : Instant) : ExecutionService :=
  let svc := svc.bookRealized profitWei gasCostWei today
  { svc with risk := svc.risk.enforceDailyLossLimit svc.pnl.daily clock }

/-- A cost without a profit; no cost is no booking. -/
def recordGasCostLoss (gasCostWei : U256) (today : ℕ) (clock : Instant) : ExecutionService :=
  if gasCostWei = 0 then svc else svc.recordRealized 0 gasCostWei today clock

end ExecutionService

/-! ## The last prefix with a property -/

section LastAt

variable {α : Type*} {P : List α → Prop} {xs : List α} {x y : α}

/-- `x` ends the last prefix with the property. -/
def LastAt (P : List α → Prop) (xs : List α) (x : α) : Prop :=
  ∃ before later, xs = before ++ x :: later ∧ P (before ++ [x]) ∧
    ∀ more last rest, later = more ++ last :: rest → ¬ P (before ++ x :: more ++ [last])

lemma lastAt_append_of (h : P (xs ++ [y])) : LastAt P (xs ++ [y]) x ↔ x = y := by
  constructor
  · rintro ⟨before, later, hsplit, -, hnone⟩
    rcases List.eq_nil_or_concat' later with rfl | ⟨more, last, rfl⟩
    · obtain ⟨-, hlast⟩ := List.append_inj' hsplit rfl
      exact (List.singleton_inj.mp hlast).symm
    · have hfull : before ++ x :: more ++ [last] = xs ++ [y] := by simp [hsplit]
      exact absurd (hfull ▸ h) (hnone more last [] rfl)
  · rintro rfl
    exact ⟨xs, [], rfl, h, by simp⟩

lemma lastAt_append_of_not (h : ¬ P (xs ++ [y])) : LastAt P (xs ++ [y]) x ↔ LastAt P xs x := by
  constructor
  · rintro ⟨before, later, hsplit, hx, hnone⟩
    rcases List.eq_nil_or_concat' later with rfl | ⟨more, last, rfl⟩
    · exact absurd (hsplit ▸ hx) h
    · have hassoc : xs ++ [y] = (before ++ x :: more) ++ [last] := by simp [hsplit]
      refine ⟨before, more, (List.append_inj' hassoc rfl).1, hx, ?_⟩
      intro more' last' rest hrest
      exact hnone more' last' (rest ++ [last]) (by simp [hrest])
  · rintro ⟨before, later, rfl, hx, hnone⟩
    refine ⟨before, later ++ [y], by simp, hx, ?_⟩
    intro more last rest hrest
    rcases List.eq_nil_or_concat' rest with rfl | ⟨rest', last', rfl⟩
    · obtain ⟨rfl, hlast⟩ := List.append_inj' hrest rfl
      rw [← List.singleton_inj.mp hlast]
      simpa using h
    · have hassoc : later ++ [y] = (more ++ last :: rest') ++ [last'] := by simp [hrest]
      exact hnone more last rest' (List.append_inj' hassoc rfl).1

end LastAt

/-! ## A day's balance -/

/-- One call of `record_realized`. -/
structure Booking where
  profitWei : U256
  gasCostWei : U256
  today : ℕ
  clock : Instant

namespace Booking

def net (b : Booking) : ℤ := b.profitWei.toNat - b.gasCostWei.toNat

def turnover (b : Booking) : ℕ := b.profitWei.toNat + b.gasCostWei.toNat

def total (bookings : List Booking) : ℤ := (bookings.map net).sum

/-- The balance of the day of the last booking: what was booked since the date last changed. -/
def dayTotal (bookings : List Booking) : ℤ :=
  match bookings.getLast? with
  | none => 0
  | some last => total ((bookings.reverse.takeWhile fun b => b.today = last.today).reverse)

/-- The last booking has left the day's balance at the limit. -/
def Breaches (limit : U256) (bookings : List Booking) : Prop :=
  bookings ≠ [] ∧ dayTotal bookings < 0 ∧ dayTotal bookings ≤ -limit.toNat

end Booking

namespace ExecutionService

def book (svc : ExecutionService) (b : Booking) : ExecutionService :=
  svc.recordRealized b.profitWei b.gasCostWei b.today b.clock

def bookAll (svc : ExecutionService) (bookings : List Booking) : ExecutionService := bookings.foldl book svc

variable {svc : ExecutionService} {b : Booking} {bookings : List Booking}

lemma clampI128_of_lt {x : ℤ} (h : |x| < 2 ^ 127) : clampI128 x = x := by
  rw [abs_lt] at h
  rw [clampI128]
  omega

lemma record_zero (pnl : PnlState) (today : ℕ) (htotal : |pnl.total| < 2 ^ 127)
    (hdaily : |pnl.daily| < 2 ^ 127) : pnl.record 0 today = pnl.maybeRollDaily today := by
  rw [PnlState.record, PnlState.maybeRollDaily]
  split_ifs with hday
  · simp only [add_zero, clampI128_of_lt htotal, clampI128_of_lt hdaily]
  · have hzero : clampI128 0 = 0 := clampI128_of_lt (by simp)
    simp only [add_zero, clampI128_of_lt htotal, hzero]

/-- A booking records its net, whichever way it goes. -/
lemma pnl_book (hturnover : b.turnover < 2 ^ 127) (htotal : |svc.pnl.total| < 2 ^ 127)
    (hdaily : |svc.pnl.daily| < 2 ^ 127) : (svc.book b).pnl = svc.pnl.record b.net b.today := by
  rw [Booking.turnover] at hturnover
  simp only [book, recordRealized, bookRealized]
  split_ifs with hle hpos
  · have hnet : capI128 (saturatingSub b.profitWei b.gasCostWei) = b.net := by
      rw [le_iff] at hle
      rw [capI128, toNat_saturatingSub, Booking.net]
      omega
    simp only [hnet]
  · have hnet : b.net = 0 := by
      rw [le_iff] at hle
      rw [capI128, toNat_saturatingSub] at hpos
      rw [Booking.net]
      omega
    rw [hnet]
    exact (record_zero _ _ htotal hdaily).symm
  · have hnet : -capI128 (saturatingSub b.gasCostWei b.profitWei) = b.net := by
      rw [le_iff] at hle
      rw [capI128, toNat_saturatingSub, Booking.net]
      omega
    simp only [hnet]

lemma risk_book : (svc.book b).risk = svc.risk.enforceDailyLossLimit (svc.book b).pnl.daily b.clock := by
  have hrisk : (svc.bookRealized b.profitWei b.gasCostWei b.today).risk = svc.risk := by
    simp only [bookRealized]
    split_ifs <;> rfl
  rw [book, recordRealized]
  simp only [hrisk]

end ExecutionService

namespace Booking

variable {b : Booking} {bookings : List Booking}

lemma abs_net_le : |b.net| ≤ b.turnover := by
  rw [abs_le, net, turnover]
  omega

lemma total_append (xs ys : List Booking) : total (xs ++ ys) = total xs + total ys := by
  simp [total]

lemma abs_total_le (bookings : List Booking) : |total bookings| ≤ (bookings.map turnover).sum := by
  induction bookings with
  | nil => simp [total]
  | cons b bookings ih =>
      have hnet := abs_net_le (b := b)
      have hsplit : total (b :: bookings) = b.net + total bookings := by simp [total]
      rw [hsplit, List.map_cons, List.sum_cons]
      rw [abs_le] at ih hnet ⊢
      omega

/-- A booking on another day than the one before it starts the balance over. -/
lemma dayTotal_append (bookings : List Booking) (b : Booking) :
    dayTotal (bookings ++ [b]) =
      (if (bookings.getLast?.any fun last => last.today = b.today) then dayTotal bookings else 0) + b.net := by
  have hlast : dayTotal (bookings ++ [b]) =
      total ((bookings.reverse.takeWhile fun x => x.today = b.today).reverse) + b.net := by
    simp [dayTotal, total]
  rw [hlast]
  cases h : bookings.getLast? with
  | none =>
      rw [List.getLast?_eq_none_iff] at h
      simp [h, total]
  | some last =>
      obtain ⟨before, rfl⟩ := List.getLast?_eq_some_iff.mp h
      by_cases hday : last.today = b.today
      · simp [dayTotal, hday]
      · simp [hday, total]

lemma abs_dayTotal_le (bookings : List Booking) : |dayTotal bookings| ≤ (bookings.map turnover).sum := by
  rw [dayTotal]
  split
  · rw [abs_zero]
    exact Int.natCast_nonneg _
  · next last _ =>
    refine (abs_total_le _).trans ?_
    have hsub : ((bookings.reverse.takeWhile fun b => b.today = last.today).reverse).Sublist bookings := by
      have h := (List.takeWhile_sublist (l := bookings.reverse) fun b => decide (b.today = last.today)).reverse
      rwa [List.reverse_reverse] at h
    exact_mod_cast (hsub.map turnover).sum_le_sum fun _ _ => Nat.zero_le _

end Booking

namespace ExecutionService

variable {svc : ExecutionService} {b : Booking} {bookings : List Booking} {limit : U256}

/-- The balances after bookings that cannot saturate them. -/
lemma pnl_bookAll (hpnl : svc.pnl = .new) (hfits : (bookings.map Booking.turnover).sum < 2 ^ 127) :
    (svc.bookAll bookings).pnl.total = Booking.total bookings ∧
      (svc.bookAll bookings).pnl.daily = Booking.dayTotal bookings ∧
      (svc.bookAll bookings).pnl.dailyUtcDay = (bookings.getLast?.map Booking.today).getD 0 := by
  induction bookings using List.reverseRecOn with
  | nil => simp [bookAll, hpnl, PnlState.new, Booking.total, Booking.dayTotal]
  | append_singleton bookings b ih =>
      have hsum : ((bookings ++ [b]).map Booking.turnover).sum =
          (bookings.map Booking.turnover).sum + b.turnover := by simp
      rw [hsum] at hfits
      obtain ⟨htotal, hdaily, hday⟩ := ih (by omega)
      have htotal_le := Booking.abs_total_le bookings
      have hdaily_le := Booking.abs_dayTotal_le bookings
      have hnet_le := Booking.abs_net_le (b := b)
      have hnext : (svc.bookAll (bookings ++ [b])).pnl = (svc.bookAll bookings).pnl.record b.net b.today := by
        rw [bookAll, List.foldl_append]
        refine pnl_book (by omega) ?_ ?_
        · rw [← bookAll, htotal]
          omega
        · rw [← bookAll, hdaily]
          omega
      have hroll : ((svc.bookAll bookings).pnl.maybeRollDaily b.today).daily =
          if (bookings.getLast?.any fun last => last.today = b.today) then Booking.dayTotal bookings else 0 := by
        rw [PnlState.maybeRollDaily, hday]
        cases hlast : bookings.getLast? with
        | none =>
            rw [List.getLast?_eq_none_iff] at hlast
            subst hlast
            split_ifs <;> simp [hdaily, Booking.dayTotal]
        | some last => by_cases hsame : last.today = b.today <;> simp [hsame, hdaily]
      have hkept : ((svc.bookAll bookings).pnl.maybeRollDaily b.today).total = Booking.total bookings ∧
          ((svc.bookAll bookings).pnl.maybeRollDaily b.today).dailyUtcDay = b.today := by
        rw [PnlState.maybeRollDaily]
        split_ifs with hsame
        · exact ⟨htotal, hsame⟩
        · exact ⟨htotal, rfl⟩
      have hnewTotal := Booking.abs_total_le (bookings ++ [b])
      have hnewDaily := Booking.abs_dayTotal_le (bookings ++ [b])
      rw [hsum, Booking.total_append] at hnewTotal
      rw [hsum, Booking.dayTotal_append] at hnewDaily
      have hsingle : Booking.total [b] = b.net := by simp [Booking.total]
      rw [hsingle] at hnewTotal
      rw [hnext, PnlState.record, Booking.dayTotal_append, Booking.total_append, hsingle]
      refine ⟨?_, ?_, ?_⟩
      · simp only [hkept.1]
        exact clampI128_of_lt (by omega)
      · simp only [hroll]
        exact clampI128_of_lt (by omega)
      · simp [hkept.2]

lemma dailyLossBreached_iff {risk : RiskState} {daily : ℤ} (hlimit : risk.maxDailyLossMaticWei = some limit) :
    risk.dailyLossBreached daily = true ↔ daily < 0 ∧ daily ≤ -limit.toNat := by
  simp only [RiskState.dailyLossBreached, hlimit, Bool.and_eq_true, decide_eq_true_eq]
  omega

/-- A booking arms the breaker exactly when it leaves the day's balance at the limit. -/
lemma quarantine_book (hlimit : svc.risk.maxDailyLossMaticWei = some limit) :
    (svc.book b).risk.maxDailyLossMaticWei = some limit ∧
      (svc.book b).risk.globalQuarantineUntil =
        if (svc.book b).pnl.daily < 0 ∧ (svc.book b).pnl.daily ≤ -limit.toNat then
          some (b.clock + fromSecs 3600)
        else svc.risk.globalQuarantineUntil := by
  rw [risk_book, RiskState.enforceDailyLossLimit]
  by_cases hbreach : svc.risk.dailyLossBreached (svc.book b).pnl.daily = true
  · rw [if_pos hbreach, if_pos ((dailyLossBreached_iff hlimit).mp hbreach)]
    exact ⟨hlimit, rfl⟩
  · rw [if_neg hbreach, if_neg fun h => hbreach ((dailyLossBreached_iff hlimit).mpr h)]
    exact ⟨hlimit, rfl⟩

lemma limit_bookAll (hlimit : svc.risk.maxDailyLossMaticWei = some limit) (bookings : List Booking) :
    (svc.bookAll bookings).risk.maxDailyLossMaticWei = some limit := by
  induction bookings using List.reverseRecOn with
  | nil => exact hlimit
  | append_singleton bookings b ih =>
      rw [bookAll, List.foldl_append]
      exact (quarantine_book ih).1

/-- The breaker is where the last booking that breached the limit put it. -/
theorem dailyLoss_breaker_iff (hpnl : svc.pnl = .new) (hlimit : svc.risk.maxDailyLossMaticWei = some limit)
    (hopen : svc.risk.globalQuarantineUntil = none)
    (hfits : (bookings.map Booking.turnover).sum < 2 ^ 127) (until_ : Instant) :
    (svc.bookAll bookings).pnl.total = Booking.total bookings ∧
      (svc.bookAll bookings).pnl.daily = Booking.dayTotal bookings ∧
      ((svc.bookAll bookings).risk.globalQuarantineUntil = some until_ ↔
        ∃ b, LastAt (Booking.Breaches limit) bookings b ∧ until_ = b.clock + fromSecs 3600) := by
  have hbalance := pnl_bookAll hpnl hfits
  refine ⟨hbalance.1, hbalance.2.1, ?_⟩
  induction bookings using List.reverseRecOn with
  | nil => simp [bookAll, hopen, LastAt]
  | append_singleton bookings b ih =>
      have hshorter : (bookings.map Booking.turnover).sum < 2 ^ 127 := by
        simp only [List.map_append, List.sum_append] at hfits
        omega
      have hih := ih hshorter (pnl_bookAll hpnl hshorter)
      have hbook : svc.bookAll (bookings ++ [b]) = (svc.bookAll bookings).book b := by
        rw [bookAll, List.foldl_append]
        rfl
      have hstep := (quarantine_book (b := b) (limit_bookAll hlimit bookings)).2
      rw [← hbook, hbalance.2.1] at hstep
      rw [hstep]
      by_cases hbreach : Booking.Breaches limit (bookings ++ [b])
      · rw [if_pos hbreach.2, Option.some.injEq]
        simp only [lastAt_append_of hbreach, exists_eq_left]
        exact eq_comm
      · have hquiet : ¬ (Booking.dayTotal (bookings ++ [b]) < 0 ∧
            Booking.dayTotal (bookings ++ [b]) ≤ -limit.toNat) := fun h => hbreach ⟨by simp, h⟩
        rw [if_neg hquiet, hih]
        simp only [lastAt_append_of_not hbreach]

/-- A service with a daily limit and nothing booked. -/
def fresh (maxLoss : U256) : ExecutionService where
  lastSubmit := fun _ => none
  lastGlobalSubmit := none
  mempoolNonceCache := none
  risk := freshRisk maxLoss
  nonce := none
  pnl := .new
  totalTrades := 0
  totalLosses := 0
  consecutiveFails := 0
  routeStats := .fresh
  gas := ⟨RecencyMap.empty, 10000⟩

/-- A loss beyond the limit, and a profit on the next day. -/
theorem dailyLoss_breaker_iff_nextDay :
    let bookings : List Booking := [⟨0, 150#256, 1, 10⟩, ⟨20#256, 0, 2, 20⟩]
    ((fresh 100#256).bookAll bookings).risk.globalQuarantineUntil = some (10 + fromSecs 3600) ∧
      ((fresh 100#256).bookAll bookings).pnl.daily = 20 ∧
      (((fresh 100#256).bookAll bookings).risk.globalQuarantineUntil = some (10 + fromSecs 3600) ↔
        ∃ b, LastAt (Booking.Breaches 100#256) bookings b ∧ 10 + fromSecs 3600 = b.clock + fromSecs 3600) := by
  intro bookings
  have hfits : (bookings.map Booking.turnover).sum < 2 ^ 127 := by decide
  have hlimit : (fresh 100#256).risk.maxDailyLossMaticWei = some 100#256 := rfl
  have h := dailyLoss_breaker_iff rfl hlimit rfl hfits (10 + fromSecs 3600)
  exact ⟨by decide, h.2.1.trans (by decide), h.2.2⟩

end ExecutionService

end PolygonArb

import PolygonArb.Core.Types
import PolygonArb.Lib.RunningBalance

/-!
# Realised profit from the receipt

`parse_transfer_profit` of `services/execution/support.rs`: the net flow of one token to the executor,
over the `Transfer` logs of a receipt.  The loop keeps one running balance, which it pays outgoing
transfers from as they come; a payment it cannot cover ends the parse.

`netFlow` is the documented result, a function of the totals.  The loop computes it for the receipts
in which the executor pays nothing it has not yet received, and for those whose totals are in deficit
anyway (`parseTransferProfit_eq_netFlow_iff`).
-/

namespace PolygonArb

open Word RunningBalance

structure Transfer where
  src : Address
  dst : Address
  value : U256
  deriving DecidableEq

/-- What the generated bindings read off a log: the token that emitted it, and the event when it is a
`Transfer`. -/
structure LogReader (Log : Type) where
  address : Log → Address
  decodeTransfer : Log → Option Transfer

/-- The locals of the loop. -/
structure TransferTally where
  net : U256
  matched : Bool
  deriving DecidableEq

section Parse

variable {Log : Type} (reader : LogReader Log) (executor : Address) (profitToken : Option Address)

/-- The transfer of a log, unless it is of another token. -/
def transferOf (log : Log) : Option Transfer :=
  if profitToken.any (· ≠ reader.address log) then none else reader.decodeTransfer log

/-- One transfer: a self transfer matches and moves nothing. -/
def TransferTally.book (tally : TransferTally) (t : Transfer) : Option TransferTally :=
  let isTo : Bool := t.dst = executor
  let isFrom : Bool := t.src = executor
  let matched := tally.matched || isTo || isFrom
  if isTo && isFrom then some { tally with matched }
  else if isTo then some ⟨saturatingAdd tally.net t.value, matched⟩
  else if isFrom then (checkedSub tally.net t.value).map fun net => ⟨net, matched⟩
  else some { tally with matched }

def bookLog (tally : TransferTally) (log : Log) : Option TransferTally :=
  match transferOf reader profitToken log with
  | none => some tally
  | some t => tally.book executor t

def parseTransferProfit (logs : List Log) : Option U256 := do
  let tally ← logs.foldlM (bookLog reader executor profitToken) ⟨0, false⟩
  if tally.matched then some tally.net else none

/-! ## The net flow -/

/-- The transfers the loop looks at, in the order of the receipt. -/
def transfersOf (logs : List Log) : List Transfer := logs.filterMap (transferOf reader profitToken)

def touches (t : Transfer) : Bool := t.dst = executor || t.src = executor

/-- What a transfer brings the executor. -/
def inflow (t : Transfer) : ℕ := if t.dst = executor ∧ t.src ≠ executor then t.value.toNat else 0

/-- What a transfer takes from the executor. -/
def outflow (t : Transfer) : ℕ := if t.src = executor ∧ t.dst ≠ executor then t.value.toNat else 0

/-- Total inflow minus total outflow; nothing without a matching transfer or in deficit. -/
def netFlow (transfers : List Transfer) : Option U256 :=
  if transfers.any (touches executor) = false ∨
      totalOf (inflow executor) transfers < totalOf (outflow executor) transfers then none
  else
    some (BitVec.ofNat 256
      (totalOf (inflow executor) transfers - totalOf (outflow executor) transfers))

/-- Values of the transfers that touch the executor. -/
def matchingValue (transfers : List Transfer) : ℕ :=
  totalOf (fun t => if touches executor t then t.value.toNat else 0) transfers

/-- The executor never pays more than it has received by then. -/
def PaysAsReceived (transfers : List Transfer) : Prop :=
  RunningBalance.Covered (inflow executor) (outflow executor) 0 transfers

variable {reader executor profitToken}

/-! ## The loop books a running balance -/

lemma flows_le (t : Transfer) :
    inflow executor t + outflow executor t ≤ if touches executor t then t.value.toNat else 0 := by
  by_cases hdst : t.dst = executor <;> by_cases hsrc : t.src = executor <;>
    simp [inflow, outflow, touches, hdst, hsrc]

lemma flows_le_matchingValue (transfers : List Transfer) :
    totalOf (inflow executor) transfers + totalOf (outflow executor) transfers ≤
      matchingValue executor transfers := by
  induction transfers with
  | nil => simp [matchingValue]
  | cons t transfers ih =>
      have := @flows_le executor t
      simp only [matchingValue, totalOf_cons] at ih ⊢
      omega

/-- One transfer, as the balance books it. -/
lemma book_eq (tally : TransferTally) (t : Transfer)
    (hfit : tally.net.toNat + inflow executor t < 2 ^ 256) :
    tally.book executor t =
      if outflow executor t ≤ tally.net.toNat + inflow executor t then
        some ⟨BitVec.ofNat 256 (tally.net.toNat + inflow executor t - outflow executor t),
          tally.matched || touches executor t⟩
      else none := by
  by_cases hdst : t.dst = executor <;> by_cases hsrc : t.src = executor
  · simp [TransferTally.book, inflow, outflow, touches, hdst, hsrc]
  · have hadd : saturatingAdd tally.net t.value =
        BitVec.ofNat 256 (tally.net.toNat + t.value.toNat) := by
      have hlt : tally.net.toNat + t.value.toNat < 2 ^ 256 := by
        simpa [inflow, hdst, hsrc] using hfit
      rw [← BitVec.toNat_inj, toNat_saturatingAdd, BitVec.toNat_ofNat, Nat.mod_eq_of_lt hlt]
      omega
    simp [TransferTally.book, inflow, outflow, touches, hdst, hsrc, hadd]
  · by_cases hpay : t.value.toNat ≤ tally.net.toNat
    · have hsub : tally.net - t.value = BitVec.ofNat 256 (tally.net.toNat - t.value.toNat) := by
        have := toNat_lt tally.net
        rw [← BitVec.toNat_inj, toNat_sub_of_le hpay, BitVec.toNat_ofNat,
          Nat.mod_eq_of_lt (by omega)]
      simp [TransferTally.book, inflow, outflow, touches, hdst, hsrc, checkedSub, hpay, hsub]
    · simp [TransferTally.book, inflow, outflow, hdst, hsrc, checkedSub, hpay]
  · simp [TransferTally.book, inflow, outflow, touches, hdst, hsrc]

/-- The loop, as the balance books it. -/
lemma foldlM_book (transfers : List Transfer) (tally : TransferTally)
    (hfit : tally.net.toNat + totalOf (inflow executor) transfers < 2 ^ 256) :
    transfers.foldlM (TransferTally.book executor) tally =
      (settle (inflow executor) (outflow executor) tally.net.toNat transfers).map fun final =>
        ⟨BitVec.ofNat 256 final, tally.matched || transfers.any (touches executor)⟩ := by
  induction transfers generalizing tally with
  | nil => simp [settle]
  | cons t transfers ih =>
      rw [totalOf_cons] at hfit
      rw [List.foldlM_cons, book_eq tally t (by omega), settle]
      split_ifs with hpay
      · have hnet : (BitVec.ofNat 256 (tally.net.toNat + inflow executor t - outflow executor t)).toNat =
            tally.net.toNat + inflow executor t - outflow executor t := by
          rw [BitVec.toNat_ofNat, Nat.mod_eq_of_lt (by omega)]
        rw [Option.bind_eq_bind, Option.bind_some, ih _ (by rw [hnet]; omega), hnet]
        simp [Bool.or_assoc]
      · rfl

lemma foldlM_bookLog (logs : List Log) (tally : TransferTally) :
    logs.foldlM (bookLog reader executor profitToken) tally =
      (transfersOf reader profitToken logs).foldlM (TransferTally.book executor) tally := by
  induction logs generalizing tally with
  | nil => rfl
  | cons log logs ih =>
      rw [List.foldlM_cons, bookLog, transfersOf]
      cases h : transferOf reader profitToken log with
      | none =>
          rw [List.filterMap_cons_none h]
          exact ih tally
      | some t =>
          rw [List.filterMap_cons_some h, List.foldlM_cons]
          exact congrArg _ (funext fun tally => ih tally)

/-- What the parse returns, as the balance books it. -/
lemma parseTransferProfit_eq (logs : List Log)
    (hfit : matchingValue executor (transfersOf reader profitToken logs) < 2 ^ 256) :
    parseTransferProfit reader executor profitToken logs =
      (settle (inflow executor) (outflow executor) 0 (transfersOf reader profitToken logs)).bind
        fun final =>
          if (transfersOf reader profitToken logs).any (touches executor) then
            some (BitVec.ofNat 256 final)
          else none := by
  have hflows := @flows_le_matchingValue executor (transfersOf reader profitToken logs)
  rw [parseTransferProfit, foldlM_bookLog, foldlM_book _ _ (by simp; omega)]
  simp only [Option.bind_eq_bind, Option.bind_map, Function.comp_def, Bool.false_or]
  rfl

lemma matchingValue_eq_zero {transfers : List Transfer}
    (h : ∀ t ∈ transfers, touches executor t = false) : matchingValue executor transfers = 0 := by
  induction transfers with
  | nil => rfl
  | cons t transfers ih =>
      rw [List.forall_mem_cons] at h
      rw [matchingValue, totalOf_cons, h.1]
      simpa [matchingValue] using ih h.2

/-- Transfers that do not touch the executor are covered. -/
lemma paysAsReceived_of_untouched {transfers : List Transfer}
    (h : ∀ t ∈ transfers, touches executor t = false) : PaysAsReceived executor transfers := by
  intro p hp
  have hzero : matchingValue executor p = 0 := matchingValue_eq_zero fun t ht => h t (hp.subset ht)
  have := @flows_le_matchingValue executor p
  omega

/-- The parse returns the net flow exactly for the receipts whose transfers are covered in order, and
for those in deficit. -/
theorem parseTransferProfit_eq_netFlow_iff (logs : List Log)
    (hfit : matchingValue executor (transfersOf reader profitToken logs) < 2 ^ 256) :
    parseTransferProfit reader executor profitToken logs =
        netFlow executor (transfersOf reader profitToken logs) ↔
      PaysAsReceived executor (transfersOf reader profitToken logs) ∨
        totalOf (inflow executor) (transfersOf reader profitToken logs) <
          totalOf (outflow executor) (transfersOf reader profitToken logs) := by
  rw [parseTransferProfit_eq logs hfit]
  generalize transfersOf reader profitToken logs = transfers
  by_cases hcovered : PaysAsReceived executor transfers
  · have htotal := hcovered.total_le
    rw [settle_of_covered hcovered, Nat.zero_add, Option.bind_some, netFlow]
    refine iff_of_true ?_ (.inl hcovered)
    cases htouched : transfers.any (touches executor) with
    | false => simp
    | true => simp; omega
  · rw [settle_of_not_covered hcovered, Option.bind_none, netFlow]
    have htouched : transfers.any (touches executor) = true := by
      by_contra h
      exact hcovered (paysAsReceived_of_untouched (by simpa using h))
    simp [hcovered, htouched]

end Parse

/-! ## A receipt and its mirror image -/

/-- Receipts whose logs are given with their token and event. -/
def plainReader : LogReader (Address × Transfer) := ⟨Prod.fst, fun log => some log.2⟩

/-- The executor receives 100 of the token and pays 40. -/
def receivedThenPaid : List (Address × Transfer) :=
  [(0xaa#160, ⟨0x22#160, 0x11#160, 100#256⟩), (0xaa#160, ⟨0x11#160, 0x22#160, 40#256⟩)]

theorem parseTransferProfit_receivedThenPaid :
    parseTransferProfit plainReader 0x11#160 (some 0xaa#160) receivedThenPaid =
        netFlow 0x11#160 (transfersOf plainReader (some 0xaa#160) receivedThenPaid) ↔
      PaysAsReceived 0x11#160 (transfersOf plainReader (some 0xaa#160) receivedThenPaid) ∨
        totalOf (inflow 0x11#160) (transfersOf plainReader (some 0xaa#160) receivedThenPaid) <
          totalOf (outflow 0x11#160) (transfersOf plainReader (some 0xaa#160) receivedThenPaid) :=
  parseTransferProfit_eq_netFlow_iff receivedThenPaid (by decide)

/-- The same two transfers in the other order are refused, with the same net flow of 60. -/
theorem parseTransferProfit_paidThenReceived :
    parseTransferProfit plainReader 0x11#160 (some 0xaa#160) receivedThenPaid = some 60#256 ∧
      parseTransferProfit plainReader 0x11#160 (some 0xaa#160) receivedThenPaid.reverse = none ∧
      netFlow 0x11#160 (transfersOf plainReader (some 0xaa#160) receivedThenPaid.reverse) =
        some 60#256 := by
  decide

end PolygonArb

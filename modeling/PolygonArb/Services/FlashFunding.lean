import PolygonArb.Services.FlashRefresh
import PolygonArb.Services.Prepare

/-!
# The lender of a direct loan

`build_cycle_flash_context` and `resolve_flash_source_with_context` of `flash_liquidity.rs`: what a route
knows of its lenders, and the lender it gets for an amount.

The plan compares the amount with what its lender has, and the alignment that follows it replaces the
vault by any Aave reserve that is not empty.  `resolveFlashSource_funds_iff` says for which amounts the
lender that is named in the end has the loan.
-/

namespace PolygonArb

open Word

/-- What a route knows of its lenders, built once for all the sizes it is tried at. -/
structure CycleFlashContext where
  liquidity : TokenFlashLiquidity
  forbidBalancerFlash : Bool
  balancerOnly : Bool
  hasDodo : Bool
  startAddr : Address
  startFresh : Bool

def FlashCache.hasFresh {β : Type} (cache : FlashCache β) (token : Address) (ttl now : ℕ) : Bool :=
  (cache.entries token).any fun e => now - e.fetchedAt < ttl

def buildCycleFlashContext {β : Type} (cycle : FoundCycle) (arena : StateArena) (flash : FlashCache β)
    (ttl now : ℕ) : Option CycleFlashContext := do
  let startAddr ← arena.tokenAddress cycle.startToken
  some
    { liquidity := routeLiquidity arena cycle (flash.tokenLiquidity startAddr ttl now)
      forbidBalancerFlash := routeUsesBalancerVaultSwap cycle
      balancerOnly := routeIsBalancerOnly cycle
      hasDodo := (dodoBaseFlashPoolForCycle arena cycle).isSome
      startAddr := startAddr
      startFresh := flash.hasFresh startAddr ttl now }

namespace CycleFlashContext

variable (ctx : CycleFlashContext) (policy : FlashLoanPolicy) (amountIn : U256)

def plan : FlashPlan :=
  planFlashLoan policy amountIn ctx.liquidity ctx.forbidBalancerFlash ctx.balancerOnly

/-- The planned source as the executor can dispatch it. -/
def align (source : FlashLoanSource) : Option FlashLoanSource :=
  alignFlashSourceForDispatch source ctx.liquidity ctx.balancerOnly ctx.hasDodo ctx.forbidBalancerFlash

end CycleFlashContext

def resolveFlashSourceWithContext (ctx : CycleFlashContext) (policy : FlashLoanPolicy)
    (amountIn : U256) : Option FlashLoanSource :=
  if amountIn = 0 then none
  else
    let plan := ctx.plan policy amountIn
    if plan.action = .reject then
      if ctx.balancerOnly ∧ ctx.forbidBalancerFlash then some .direct else none
    else ctx.align plan.source

/-! ## What the lender has -/

/-- A lender that is named for a direct plan has the amount. -/
def LenderFunds (liquidity : TokenFlashLiquidity) (ctx : CycleFlashContext) (policy : FlashLoanPolicy)
    (amountIn : U256) : Prop :=
  ∀ lender, (ctx.plan policy amountIn).action = .direct →
    resolveFlashSourceWithContext ctx policy amountIn = some lender → lender ≠ .direct →
      amountIn ≤ liquidity.of lender

/-- The plan asks the vault, and the Aave reserve the loan is moved to has something, but less than
the amount. -/
def MovedToShortReserve (policy : FlashLoanPolicy) (cycle : FoundCycle) (amountIn : U256)
    (snapshot : TokenFlashLiquidity) : Prop :=
  routeUsesBalancerVaultSwap cycle = false ∧ policy ≠ .aaveOnly ∧ amountIn ≤ snapshot.balancer ∧
    snapshot.aave ≠ 0 ∧ snapshot.aave < amountIn

section Route

variable {β : Type} {arena : StateArena} {cycle : FoundCycle} {flash : FlashCache β} {ttl now : ℕ}
  {ctx : CycleFlashContext} {policy : FlashLoanPolicy} {amountIn : U256}
  {snapshot : TokenFlashLiquidity}

lemma aaveViable_iff : snapshot.aaveViable = true ↔ snapshot.aave ≠ 0 := by
  simp only [TokenFlashLiquidity.aaveViable, Bool.and_eq_true, decide_eq_true_eq]
  exact ⟨fun h => h.2, fun h => ⟨snapshot.listed h, h⟩⟩

lemma balancerOnly_of_not_vault (hvault : routeUsesBalancerVaultSwap cycle = false) :
    routeIsBalancerOnly cycle = false := by
  by_contra h
  rw [Bool.not_eq_false] at h
  rw [routeUsesBalancerVaultSwap_of_balancerOnly h] at hvault
  cases hvault

/-- What the context of a route is made of. -/
lemma buildCycleFlashContext_eq (h : buildCycleFlashContext cycle arena flash ttl now = some ctx) :
    (ctx.plan policy amountIn =
        planRoute policy arena cycle amountIn (flash.tokenLiquidity ctx.startAddr ttl now)) ∧
      ∀ source, ctx.align source =
        alignFlashSourceForDispatch source
          (routeLiquidity arena cycle (flash.tokenLiquidity ctx.startAddr ttl now))
          (routeIsBalancerOnly cycle) false (routeUsesBalancerVaultSwap cycle) := by
  rw [buildCycleFlashContext] at h
  cases hstart : arena.tokenAddress cycle.startToken with
  | none =>
      rw [hstart] at h
      cases h
  | some startAddr =>
      rw [hstart] at h
      cases h
      refine ⟨rfl, fun source => ?_⟩
      simp [CycleFlashContext.align, dodoBaseFlashPoolForCycle_eq_none]

/-- A vault with the amount is planned, whatever Aave has. -/
lemma planRoute_of_vault (hvault : routeUsesBalancerVaultSwap cycle = false)
    (hpolicy : policy ≠ .aaveOnly) (hne : amountIn ≠ 0) (hle : amountIn ≤ snapshot.balancer) :
    planRoute policy arena cycle amountIn snapshot = ⟨.balancer, .direct, amountIn⟩ := by
  have hroute : (routeLiquidity arena cycle snapshot).balancer = snapshot.balancer :=
    @of_routeLiquidity _ _ _ .balancer (fun _ => hvault) (by simp)
  rw [planRoute, planFlashLoan.eq_def, if_neg hne, hvault]
  cases policy with
  | auto =>
      simp only [Bool.false_eq_true, if_false, planAuto, hroute]
      exact if_pos ⟨trivial, hle⟩
  | balancerOnly =>
      have hbalancer : snapshot.balancer ≠ 0 := by
        rintro hzero
        rw [hzero, le_iff] at hle
        exact hne (eq_zero_iff.mpr (Nat.le_zero.mp hle))
      simp only [Bool.false_eq_true, if_false, planSingle, hroute, if_neg hbalancer, if_pos hle]
  | aaveOnly => exact absurd rfl hpolicy

/-- The policy that only takes Aave never plans the vault. -/
lemma source_planRoute_aaveOnly (hvault : routeUsesBalancerVaultSwap cycle = false)
    (hne : amountIn ≠ 0) :
    (planRoute .aaveOnly arena cycle amountIn snapshot).source = .aaveV3 := by
  rw [planRoute, planFlashLoan.eq_def, if_neg hne, hvault]
  simp only [Bool.false_eq_true, if_false]
  split_ifs with hlisted
  · exact source_planSingle .aaveV3 _
  · rfl

/-- Away from the vault's pools the alignment takes a viable Aave reserve in place of the vault. -/
lemma align_balancer (hvault : routeUsesBalancerVaultSwap cycle = false) :
    alignFlashSourceForDispatch .balancer (routeLiquidity arena cycle snapshot)
        (routeIsBalancerOnly cycle) false (routeUsesBalancerVaultSwap cycle) =
      if snapshot.aave ≠ 0 then some .aaveV3
      else if snapshot.balancer ≠ 0 then some .balancer
      else none := by
  have hroute : (routeLiquidity arena cycle snapshot).balancer = snapshot.balancer :=
    @of_routeLiquidity _ _ _ .balancer (fun _ => hvault) (by simp)
  have hviable : (routeLiquidity arena cycle snapshot).aaveViable = true ↔ snapshot.aave ≠ 0 :=
    aaveViable_iff
  rw [alignFlashSourceForDispatch, balancerOnly_of_not_vault hvault, hvault, hroute]
  simp only [true_or, and_true, if_true, Bool.false_eq_true, if_false, hviable]

/-- An Aave plan stays with Aave or is given up. -/
lemma eq_aaveV3_of_align {lender : FlashLoanSource} {liquidity : TokenFlashLiquidity} {balancerOnly vault : Bool}
    (h : alignFlashSourceForDispatch .aaveV3 liquidity balancerOnly false vault = some lender) :
    lender = .aaveV3 := by
  revert h
  rw [alignFlashSourceForDispatch]
  cases liquidity.aaveViable <;> simp [eq_comm]

lemma funds_of_not_moved (hbuild : buildCycleFlashContext cycle arena flash ttl now = some ctx)
    (hkept : ¬ MovedToShortReserve policy cycle amountIn
      (flash.tokenLiquidity ctx.startAddr ttl now)) :
    LenderFunds (flash.tokenLiquidity ctx.startAddr ttl now) ctx policy amountIn := by
  rcases @buildCycleFlashContext_eq _ _ _ _ _ _ _ policy amountIn hbuild with
    ⟨hplan, halign⟩
  rw [LenderFunds, hplan]
  simp only [resolveFlashSourceWithContext, hplan, halign]
  generalize flash.tokenLiquidity ctx.startAddr ttl now = snapshot at hkept ⊢
  intro lender hdirect hresolve hlender
  by_cases hzero : amountIn = 0
  · rw [if_pos hzero] at hresolve
    cases hresolve
  have haction : (planRoute policy arena cycle amountIn snapshot).action ≠ .reject := by
    rw [hdirect]
    simp
  rw [if_neg hzero, if_neg haction] at hresolve
  have hcovered : Covered amountIn snapshot (planRoute policy arena cycle amountIn snapshot) :=
    covered_planRoute
  have hle := hcovered.direct hdirect
  cases hsource : (planRoute policy arena cycle amountIn snapshot).source with
  | balancer =>
      have hvault : routeUsesBalancerVaultSwap cycle = false :=
        not_forbid_of_source_balancer hsource haction
      have hpolicy : policy ≠ .aaveOnly := by
        rintro rfl
        rw [source_planRoute_aaveOnly hvault hzero] at hsource
        cases hsource
      rw [hsource] at hle
      have hbalancer : amountIn ≤ snapshot.balancer := hle (by simp)
      rw [hsource, align_balancer hvault] at hresolve
      split_ifs at hresolve with haave hempty
      · cases hresolve
        change amountIn ≤ snapshot.aave
        by_contra hshort
        refine hkept ⟨hvault, hpolicy, hbalancer, haave, ?_⟩
        rw [le_iff] at hshort
        rw [lt_iff]
        omega
      · cases hresolve
        exact hbalancer
  | aaveV3 =>
      rw [hsource] at hresolve hle
      rw [eq_aaveV3_of_align hresolve]
      exact hle (by simp)
  | dodo => exact absurd hsource (hcovered.ne_dodo haction)
  | direct =>
      have hpure : routeIsBalancerOnly cycle = true := (source_planRoute_direct_iff haction).mp hsource
      rw [hsource, hpure] at hresolve
      refine absurd ?_ hlender
      simpa [alignFlashSourceForDispatch] using hresolve.symm

lemma not_funds_of_moved (hbuild : buildCycleFlashContext cycle arena flash ttl now = some ctx)
    (hmoved : MovedToShortReserve policy cycle amountIn
      (flash.tokenLiquidity ctx.startAddr ttl now)) :
    ¬ LenderFunds (flash.tokenLiquidity ctx.startAddr ttl now) ctx policy amountIn := by
  rcases @buildCycleFlashContext_eq _ _ _ _ _ _ _ policy amountIn hbuild with
    ⟨hplan, halign⟩
  rcases hmoved with ⟨hvault, hpolicy, hle, haave, hshort⟩
  rw [lt_iff] at hshort
  have hzero : amountIn ≠ 0 := by
    rw [Ne, eq_zero_iff]
    omega
  rw [planRoute_of_vault hvault hpolicy hzero hle] at hplan
  intro hfunds
  have haave_le : amountIn ≤ (flash.tokenLiquidity ctx.startAddr ttl now).of .aaveV3 := by
    refine hfunds .aaveV3 (by rw [hplan]) ?_ (by simp)
    simp only [resolveFlashSourceWithContext, if_neg hzero, hplan, halign, align_balancer hvault,
      if_pos haave, reduceCtorEq, if_false]
  rw [le_iff] at haave_le
  change amountIn.toNat ≤ (flash.tokenLiquidity ctx.startAddr ttl now).aave.toNat at haave_le
  omega

/-- A directly resolved lender has the loan, unless the vault had it and the loan was moved to an Aave
reserve that holds less. -/
theorem resolveFlashSource_funds_iff (policy : FlashLoanPolicy) (arena : StateArena)
    (cycle : FoundCycle) (flash : FlashCache β) (ttl now : ℕ) (amountIn : U256) :
    (∀ ctx, buildCycleFlashContext cycle arena flash ttl now = some ctx →
        LenderFunds (flash.tokenLiquidity ctx.startAddr ttl now) ctx policy amountIn) ↔
      ∀ start, arena.tokenAddress cycle.startToken = some start →
        ¬ MovedToShortReserve policy cycle amountIn (flash.tokenLiquidity start ttl now) := by
  constructor
  · intro hfunds start hstart hmoved
    have hbuild : ∃ ctx, buildCycleFlashContext cycle arena flash ttl now = some ctx ∧
        ctx.startAddr = start := by
      rw [buildCycleFlashContext, hstart]
      exact ⟨_, rfl, rfl⟩
    rcases hbuild with ⟨ctx, hbuild, rfl⟩
    exact not_funds_of_moved hbuild hmoved (hfunds ctx hbuild)
  · intro hkept ctx hbuild
    refine funds_of_not_moved hbuild (hkept ctx.startAddr ?_)
    rw [buildCycleFlashContext] at hbuild
    cases hstart : arena.tokenAddress cycle.startToken with
    | none =>
        rw [hstart] at hbuild
        cases hbuild
    | some startAddr =>
        rw [hstart] at hbuild
        cases hbuild
        rfl

end Route

/-- The vault has a thousand of token 2, Aave ten. -/
def shallowAave : FlashCache Unit :=
  { (FlashCache.fresh : FlashCache Unit) with
    entries := fun token =>
      if token = 2#160 then some ⟨⟨1000#256, 10#256, true, 0, by simp⟩, 0⟩ else none }

/-- Five hundred are planned from the vault and named as an Aave loan. -/
theorem resolveFlashSource_shallowAave :
    ∃ ctx, buildCycleFlashContext roundTrip spreadArena shallowAave 30 1 = some ctx ∧
      ctx.plan .auto 500#256 = ⟨.balancer, .direct, 500#256⟩ ∧
      resolveFlashSourceWithContext ctx .auto 500#256 = some .aaveV3 ∧
      (shallowAave.tokenLiquidity ctx.startAddr 30 1).of .aaveV3 < 500#256 :=
  ⟨_, rfl, by decide, by decide, by decide⟩

end PolygonArb

import PolygonArb.Pipeline.LocalSim
import PolygonArb.Services.Profit

/-!
# Choosing a lender

`services/execution/flash_liquidity.rs`, the pure part: which lender funds a route, and how much of it.
`planFlashLoan` decides on the liquidity a lender has for the start token; `alignFlashSourceForDispatch`
maps a decision onto what the executor can dispatch.

`covered_planRoute`: a plan that is not a rejection never promises more than the snapshot has of the
lender it names.
-/

namespace PolygonArb

open Word

inductive FlashLoanPolicy
  | auto
  | balancerOnly
  | aaveOnly
  deriving DecidableEq

inductive FlashPlanAction
  | direct
  | capAndReoptimize
  | reject
  deriving DecidableEq

structure FlashPlan where
  source : FlashLoanSource
  action : FlashPlanAction
  cap : U256
  deriving DecidableEq

/-- What the lenders have of one token.  Aave cash is only read for a listed reserve, and a reserve
that is delisted loses its cash with the listing. -/
structure TokenFlashLiquidity where
  balancer : U256
  aave : U256
  aaveListed : Bool
  dodo : U256
  listed : aave ≠ 0 → aaveListed = true
  deriving DecidableEq

lemma listed_of_empty (aaveListed : Bool) : (0 : U256) ≠ 0 → aaveListed = true := absurd rfl

/-- The liquidity of one lender.  A route that borrows nothing has none to ask for. -/
def TokenFlashLiquidity.of (liquidity : TokenFlashLiquidity) : FlashLoanSource → U256
  | .balancer => liquidity.balancer
  | .aaveV3 => liquidity.aave
  | .dodo => liquidity.dodo
  | .direct => 0

def planReject (source : FlashLoanSource) : FlashPlan := ⟨source, .reject, 0⟩

def planSingle (source : FlashLoanSource) (amountIn available : U256) : FlashPlan :=
  if available = 0 then planReject source
  else if amountIn ≤ available then ⟨source, .direct, amountIn⟩
  else ⟨source, .capAndReoptimize, available⟩

def planAuto (amountIn : U256) (liquidity : TokenFlashLiquidity) (allowBalancer : Bool) : FlashPlan :=
  if allowBalancer ∧ amountIn ≤ liquidity.balancer then ⟨.balancer, .direct, amountIn⟩
  else if liquidity.aaveListed ∧ amountIn ≤ liquidity.aave then ⟨.aaveV3, .direct, amountIn⟩
  else if amountIn ≤ liquidity.dodo then ⟨.dodo, .direct, amountIn⟩
  else
    let cap :=
      if allowBalancer then max (max liquidity.balancer liquidity.aave) liquidity.dodo
      else max liquidity.aave liquidity.dodo
    if cap = 0 then planReject .balancer
    else
      let source : FlashLoanSource :=
        if allowBalancer ∧ liquidity.balancer ≠ 0 ∧ liquidity.aave ≤ liquidity.balancer then .balancer
        else if liquidity.aaveListed ∧ liquidity.dodo ≤ liquidity.aave then .aaveV3
        else .dodo
      ⟨source, .capAndReoptimize, cap⟩

/-- The vault cannot lend to a route that swaps through it; a route that only does so needs no loan. -/
def planFlashLoan (policy : FlashLoanPolicy) (amountIn : U256) (liquidity : TokenFlashLiquidity)
    (forbidBalancerFlash balancerOnly : Bool) : FlashPlan :=
  if amountIn = 0 then planReject .balancer
  else if forbidBalancerFlash then
    if balancerOnly then ⟨.direct, .direct, amountIn⟩
    else if liquidity.aaveListed = false ∨ liquidity.aave = 0 then
      if liquidity.dodo ≠ 0 then planSingle .dodo amountIn liquidity.dodo else planReject .aaveV3
    else planSingle .aaveV3 amountIn liquidity.aave
  else
    match policy with
    | .auto => planAuto amountIn liquidity true
    | .balancerOnly => planSingle .balancer amountIn liquidity.balancer
    | .aaveOnly =>
        if liquidity.aaveListed then planSingle .aaveV3 amountIn liquidity.aave
        else planReject .aaveV3

/-! ## What a route needs -/

def routeUsesBalancerVaultSwap (cycle : FoundCycle) : Bool :=
  cycle.edges.any fun e => e.protocol = .balancerV2

def routeIsBalancerOnly (cycle : FoundCycle) : Bool :=
  !cycle.edges.isEmpty && cycle.edges.all fun e => e.protocol = .balancerV2

/-- No lender outside the route is wired, and a pool of the route cannot lend to it. -/
def dodoBaseFlashPoolForCycle (arena : StateArena) (cycle : FoundCycle) : Option Address := do
  let _ ← arena.tokenAddress cycle.startToken
  if dodoExternalFlashEnabled = false then none else none

/-- Most start-token cash in a Balancer pool of the route. -/
def routeBalancerFlashCapacity (arena : StateArena) (cycle : FoundCycle) : U256 :=
  match arena.tokenAddress cycle.startToken with
  | none => 0
  | some start =>
      cycle.edges.foldl (fun most edge => (poolCash start edge).elim most (max most)) 0
where
  poolCash (start : Address) (edge : Edge) : Option U256 :=
    if edge.protocol ≠ .balancerV2 then none
    else
      match arena.poolState edge.poolIndex with
      | some (.balancer s) => (s.tokens.findIdx? (· = start)).bind fun i => s.balances[i]?
      | _ => none

/-- The lower of the vault balance and the pool cash, a zero meaning unknown. -/
def effectiveBalancerLiquidity (snapshot routeCap : U256) : U256 :=
  if snapshot = 0 then routeCap else if routeCap = 0 then snapshot else min snapshot routeCap

/-- The liquidity a route can count on. -/
def routeLiquidity (arena : StateArena) (cycle : FoundCycle) (snapshot : TokenFlashLiquidity) :
    TokenFlashLiquidity where
  balancer := effectiveBalancerLiquidity snapshot.balancer (routeBalancerFlashCapacity arena cycle)
  aave := snapshot.aave
  aaveListed := snapshot.aaveListed
  listed := snapshot.listed
  dodo := if (dodoBaseFlashPoolForCycle arena cycle).isSome then maxValue else 0

/-- The plan for a route at a size. -/
def planRoute (policy : FlashLoanPolicy) (arena : StateArena) (cycle : FoundCycle) (amountIn : U256)
    (snapshot : TokenFlashLiquidity) : FlashPlan :=
  planFlashLoan policy amountIn (routeLiquidity arena cycle snapshot)
    (routeUsesBalancerVaultSwap cycle) (routeIsBalancerOnly cycle)

def TokenFlashLiquidity.aaveViable (liquidity : TokenFlashLiquidity) : Bool :=
  liquidity.aaveListed && liquidity.aave ≠ 0

/-- Map a planned source onto one the executor can dispatch. -/
def alignFlashSourceForDispatch (source : FlashLoanSource) (liquidity : TokenFlashLiquidity)
    (balancerOnly hasDodo routeUsesBalancerVault : Bool) : Option FlashLoanSource :=
  if balancerOnly = false ∧ (source = .balancer ∨ source = .direct) then
    if liquidity.aaveViable then some .aaveV3
    else if hasDodo then some .dodo
    else if liquidity.balancer ≠ 0 ∧ routeUsesBalancerVault = false then some .balancer
    else none
  else if source = .aaveV3 ∧ liquidity.aaveViable = false then
    if hasDodo then some .dodo else none
  else if source = .dodo ∧ hasDodo = false then
    if liquidity.aaveViable then some .aaveV3 else none
  else some source

/-! ## Plans are covered -/

section Plan

variable {policy : FlashLoanPolicy} {amountIn : U256} {liquidity : TokenFlashLiquidity}

/-- A plan keeps to what its lender has: the whole amount when it is direct, the whole liquidity when
it is capped.  DODO never lends. -/
structure Covered (amountIn : U256) (liquidity : TokenFlashLiquidity) (plan : FlashPlan) : Prop where
  ne_dodo : plan.action ≠ .reject → plan.source ≠ .dodo
  ne_zero : plan.action ≠ .reject → plan.source ≠ .direct → liquidity.of plan.source ≠ 0
  direct : plan.action = .direct → plan.source ≠ .direct → amountIn ≤ liquidity.of plan.source
  cap_source : plan.action = .capAndReoptimize → plan.source ≠ .direct
  cap_eq : plan.action = .capAndReoptimize → plan.cap = liquidity.of plan.source
  cap_lt : plan.action = .capAndReoptimize → plan.cap < amountIn

lemma covered_planReject (source : FlashLoanSource) : Covered amountIn liquidity (planReject source) := by
  constructor <;> simp [planReject]

lemma covered_direct {source : FlashLoanSource} (hsource : source ≠ .dodo) {cap : U256}
    (hne : liquidity.of source ≠ 0) (h : amountIn ≤ liquidity.of source) :
    Covered amountIn liquidity ⟨source, .direct, cap⟩ where
  ne_dodo _ := hsource
  ne_zero _ _ := hne
  direct _ _ := h
  cap_source haction := by cases haction
  cap_eq haction := by cases haction
  cap_lt haction := by cases haction

lemma covered_cap {source : FlashLoanSource} (hsource : source = .balancer ∨ source = .aaveV3)
    {cap : U256} (hne : cap ≠ 0) (hcap : cap = liquidity.of source)
    (hlt : ¬ amountIn ≤ liquidity.of source) :
    Covered amountIn liquidity ⟨source, .capAndReoptimize, cap⟩ := by
  have hcap_lt : liquidity.of source < amountIn := by
    rw [lt_iff]
    rw [le_iff] at hlt
    omega
  refine ⟨?_, ?_, ?_, ?_, fun _ => hcap, fun _ => hcap ▸ hcap_lt⟩
  · rcases hsource with rfl | rfl <;> simp
  · exact fun _ _ => hcap ▸ hne
  · intro haction
    cases haction
  · rcases hsource with rfl | rfl <;> simp

lemma covered_planSingle {source : FlashLoanSource} (hsource : source = .balancer ∨ source = .aaveV3) :
    Covered amountIn liquidity (planSingle source amountIn (liquidity.of source)) := by
  rw [planSingle]
  split_ifs with hzero hle
  · exact covered_planReject source
  · refine covered_direct ?_ hzero hle
    rcases hsource with rfl | rfl <;> simp
  · exact covered_cap hsource hzero rfl hle

/-- Without DODO liquidity the automatic plan names the lender with the most, and its cap is what
that lender has. -/
lemma covered_planAuto (hne : amountIn ≠ 0) (hdodo : liquidity.dodo = 0) :
    Covered amountIn liquidity (planAuto amountIn liquidity true) := by
  have hmax : (max (max liquidity.balancer liquidity.aave) liquidity.dodo).toNat =
      max liquidity.balancer.toNat liquidity.aave.toNat := by
    simp [hdodo]
  have hpos : ∀ {x : U256}, amountIn ≤ x → x ≠ 0 := by
    intro x hle
    rw [Ne, eq_zero_iff] at hne ⊢
    rw [le_iff] at hle
    omega
  have hdodo_lt : ¬ amountIn ≤ liquidity.dodo := fun hle => hpos hle hdodo
  by_cases hbalancer : amountIn ≤ liquidity.balancer
  · rw [planAuto, if_pos ⟨rfl, hbalancer⟩]
    exact covered_direct (by simp) (hpos hbalancer) hbalancer
  rw [planAuto, if_neg fun h => hbalancer h.2]
  by_cases haave : liquidity.aaveListed = true ∧ amountIn ≤ liquidity.aave
  · rw [if_pos haave]
    exact covered_direct (by simp) (hpos haave.2) haave.2
  simp only [if_neg haave, if_neg hdodo_lt, if_true, true_and]
  split_ifs with hzero hmost hlisted
  · exact covered_planReject .balancer
  · refine covered_cap (.inl rfl) hzero ?_ hbalancer
    rw [← BitVec.toNat_inj, hmax]
    exact max_eq_left (le_iff.mp hmost.2)
  · refine covered_cap (.inr rfl) hzero ?_ fun h => haave ⟨hlisted.1, h⟩
    rw [← BitVec.toNat_inj, hmax]
    refine max_eq_right ?_
    rw [not_and_or, le_iff, not_not, eq_zero_iff] at hmost
    change liquidity.balancer.toNat ≤ liquidity.aave.toNat
    omega
  · -- a lender with cash is left, so Aave has some and is listed
    exfalso
    have haave_ne : liquidity.aave ≠ 0 := by
      intro h
      rw [not_and_or, le_iff, not_not] at hmost
      rcases hmost with hb | hlt
      · exact hzero (by rw [eq_zero_iff, hmax, h, hb]; rfl)
      · rw [h] at hlt
        simp at hlt
    refine hlisted ⟨liquidity.listed haave_ne, ?_⟩
    rw [hdodo, le_iff]
    simp

/-- The plan of a route that swaps through the vault. -/
lemma covered_planForbidden (hdodo : liquidity.dodo = 0) (balancerOnly : Bool) :
    Covered amountIn liquidity (planFlashLoan policy amountIn liquidity true balancerOnly) := by
  simp only [planFlashLoan, if_true]
  split_ifs with hzero honly hunlisted hdodo_ne
  · exact covered_planReject .balancer
  · constructor <;> simp
  · exact absurd hdodo hdodo_ne
  · exact covered_planReject .aaveV3
  · exact covered_planSingle (.inr rfl)

lemma covered_planFlashLoan (hdodo : liquidity.dodo = 0) (forbid balancerOnly : Bool) :
    Covered amountIn liquidity (planFlashLoan policy amountIn liquidity forbid balancerOnly) := by
  cases forbid with
  | true => exact covered_planForbidden hdodo balancerOnly
  | false =>
      by_cases hzero : amountIn = 0
      · rw [planFlashLoan.eq_def, if_pos hzero]
        exact covered_planReject .balancer
      cases policy with
      | auto =>
          simp only [planFlashLoan, if_neg hzero]
          exact covered_planAuto hzero hdodo
      | balancerOnly =>
          simp only [planFlashLoan, if_neg hzero]
          exact covered_planSingle (.inl rfl)
      | aaveOnly =>
          simp only [planFlashLoan, if_neg hzero, Bool.false_eq_true, if_false]
          split_ifs with hlisted
          · exact covered_planSingle (.inr rfl)
          · exact covered_planReject .aaveV3

/-- The vault is only asked by a route that does not swap through it. -/
lemma not_forbid_of_source_balancer {forbid balancerOnly : Bool}
    (hsource : (planFlashLoan policy amountIn liquidity forbid balancerOnly).source = .balancer)
    (haction : (planFlashLoan policy amountIn liquidity forbid balancerOnly).action ≠ .reject) :
    forbid = false := by
  cases forbid with
  | false => rfl
  | true =>
      exfalso
      revert hsource haction
      simp only [planFlashLoan, planSingle, planReject, if_true]
      split_ifs <;> simp

lemma source_planSingle (source : FlashLoanSource) (available : U256) :
    (planSingle source amountIn available).source = source := by
  rw [planSingle]
  split_ifs <;> rfl

lemma source_planAuto_ne_direct (allowBalancer : Bool) :
    (planAuto amountIn liquidity allowBalancer).source ≠ .direct := by
  simp only [planAuto, planReject]
  split_ifs <;> simp

lemma source_planFlashLoan_ne_direct {forbid : Bool} :
    (planFlashLoan policy amountIn liquidity forbid false).source ≠ .direct := by
  cases policy with
  | auto =>
      simp only [planFlashLoan, Bool.false_eq_true, if_false]
      split_ifs <;> simp [planReject, source_planSingle, source_planAuto_ne_direct]
  | balancerOnly =>
      simp only [planFlashLoan, Bool.false_eq_true, if_false]
      split_ifs <;> simp [planReject, source_planSingle]
  | aaveOnly =>
      simp only [planFlashLoan, Bool.false_eq_true, if_false]
      split_ifs <;> simp [planReject, source_planSingle]

/-- With a viable Aave reserve the automatic plan takes the vault when it has the amount, or at least
as much as Aave. -/
lemma source_planAuto_balancer_iff (hdodo : liquidity.dodo = 0) (hviable : liquidity.aaveViable = true) :
    (planAuto amountIn liquidity true).source = .balancer ↔
      amountIn ≤ liquidity.balancer ∨ liquidity.aave ≤ liquidity.balancer := by
  simp only [TokenFlashLiquidity.aaveViable, Bool.and_eq_true, decide_eq_true_eq] at hviable
  rcases hviable with ⟨hlisted, hne⟩
  have hpos : 0 < liquidity.aave.toNat := by
    rw [Ne, eq_zero_iff] at hne
    omega
  by_cases hbalancer : amountIn ≤ liquidity.balancer
  · simp [planAuto, hbalancer]
  rw [planAuto, if_neg fun h => hbalancer h.2]
  by_cases haave : amountIn ≤ liquidity.aave
  · rw [if_pos ⟨hlisted, haave⟩]
    rw [le_iff] at hbalancer haave
    simp only [reduceCtorEq, le_iff, false_iff, not_or]
    omega
  have hdodo_lt : ¬ amountIn ≤ liquidity.dodo := by
    rw [le_iff] at haave
    rw [hdodo, le_iff]
    simp only [BitVec.ofNat_eq_ofNat, BitVec.toNat_ofNat, Nat.zero_mod]
    omega
  have hcap : max (max liquidity.balancer liquidity.aave) liquidity.dodo ≠ 0 := by
    rw [Ne, eq_zero_iff, toNat_max, toNat_max]
    omega
  have hdodo_le : liquidity.dodo ≤ liquidity.aave := by
    rw [hdodo, le_iff]
    simp
  simp only [if_neg fun h : _ ∧ _ => haave h.2, if_neg hdodo_lt, if_true, true_and, if_neg hcap,
    hbalancer, false_or]
  by_cases hmost : liquidity.aave ≤ liquidity.balancer
  · have hbalancer_ne : liquidity.balancer ≠ 0 := by
      rw [le_iff] at hmost
      rw [Ne, eq_zero_iff]
      omega
    rw [if_pos ⟨hbalancer_ne, hmost⟩]
    exact iff_of_true rfl hmost
  · simp [hmost, hlisted, hdodo_le]

end Plan

section Route

variable {policy : FlashLoanPolicy} {arena : StateArena} {cycle : FoundCycle} {amountIn : U256}
  {snapshot : TokenFlashLiquidity}

lemma dodoBaseFlashPoolForCycle_eq_none : dodoBaseFlashPoolForCycle arena cycle = none := by
  cases h : arena.tokenAddress cycle.startToken <;> simp [dodoBaseFlashPoolForCycle, h]

lemma dodo_routeLiquidity : (routeLiquidity arena cycle snapshot).dodo = 0 := by
  simp [routeLiquidity, dodoBaseFlashPoolForCycle_eq_none]

lemma routeBalancerFlashCapacity_eq_zero (h : routeUsesBalancerVaultSwap cycle = false) :
    routeBalancerFlashCapacity arena cycle = 0 := by
  have hproto : ∀ edge ∈ cycle.edges, edge.protocol ≠ .balancerV2 := by
    simpa [routeUsesBalancerVaultSwap] using h
  rw [routeBalancerFlashCapacity]
  cases arena.tokenAddress cycle.startToken with
  | none => rfl
  | some start =>
      dsimp only
      generalize cycle.edges = edges at hproto
      induction edges with
      | nil => rfl
      | cons edge edges ih =>
          have hnone : routeBalancerFlashCapacity.poolCash arena start edge = none := by
            rw [routeBalancerFlashCapacity.poolCash, if_pos (hproto edge List.mem_cons_self)]
          rw [List.foldl_cons, hnone]
          exact ih fun e he => hproto e (List.mem_cons_of_mem edge he)

/-- Wherever a plan looks, the route counts on what the snapshot has. -/
lemma of_routeLiquidity {source : FlashLoanSource}
    (hbalancer : source = .balancer → routeUsesBalancerVaultSwap cycle = false)
    (hdodo : source ≠ .dodo) : (routeLiquidity arena cycle snapshot).of source = snapshot.of source := by
  cases source with
  | balancer =>
      have hcap : routeBalancerFlashCapacity arena cycle = 0 :=
        routeBalancerFlashCapacity_eq_zero (hbalancer rfl)
      simp only [TokenFlashLiquidity.of, routeLiquidity, effectiveBalancerLiquidity, hcap, if_true]
      split_ifs with hzero
      · exact hzero.symm
      · rfl
  | aaveV3 => rfl
  | dodo => exact absurd rfl hdodo
  | direct => rfl

lemma covered_planRoute_routeLiquidity :
    Covered amountIn (routeLiquidity arena cycle snapshot)
      (planRoute policy arena cycle amountIn snapshot) :=
  covered_planFlashLoan dodo_routeLiquidity _ _

/-- A route's plan keeps to the snapshot itself: where the pool cash of the route lowers what the
vault is counted for, the vault is not asked. -/
theorem covered_planRoute :
    Covered amountIn snapshot (planRoute policy arena cycle amountIn snapshot) := by
  have hcovered : Covered amountIn (routeLiquidity arena cycle snapshot)
      (planRoute policy arena cycle amountIn snapshot) := covered_planRoute_routeLiquidity
  have hof : (planRoute policy arena cycle amountIn snapshot).action ≠ .reject →
      (routeLiquidity arena cycle snapshot).of (planRoute policy arena cycle amountIn snapshot).source =
        snapshot.of (planRoute policy arena cycle amountIn snapshot).source := by
    intro haction
    exact of_routeLiquidity (fun hsource => not_forbid_of_source_balancer hsource haction)
      (hcovered.ne_dodo haction)
  refine ⟨hcovered.ne_dodo, ?_, ?_, hcovered.cap_source, ?_, hcovered.cap_lt⟩
  · intro haction hsource
    rw [← hof haction]
    exact hcovered.ne_zero haction hsource
  · intro haction hsource
    rw [← hof (by simp [haction])]
    exact hcovered.direct haction hsource
  · intro haction
    rw [← hof (by simp [haction])]
    exact hcovered.cap_eq haction

lemma routeUsesBalancerVaultSwap_of_balancerOnly (h : routeIsBalancerOnly cycle = true) :
    routeUsesBalancerVaultSwap cycle = true := by
  simp only [routeIsBalancerOnly, Bool.and_eq_true, Bool.not_eq_true', List.isEmpty_eq_false_iff,
    List.all_eq_true] at h
  rcases List.exists_mem_of_ne_nil _ h.1 with ⟨edge, hedge⟩
  exact List.any_eq_true.mpr ⟨edge, hedge, h.2 edge hedge⟩

/-- A pure Balancer route is planned without a loan, and no other route is. -/
lemma source_planRoute_direct_iff
    (haction : (planRoute policy arena cycle amountIn snapshot).action ≠ .reject) :
    (planRoute policy arena cycle amountIn snapshot).source = .direct ↔
      routeIsBalancerOnly cycle = true := by
  constructor
  · intro hsource
    by_contra honly
    rw [Bool.not_eq_true] at honly
    revert hsource
    rw [planRoute, honly]
    exact source_planFlashLoan_ne_direct
  · intro honly
    by_cases hzero : amountIn = 0
    · exact absurd (by rw [planRoute, planFlashLoan.eq_def, if_pos hzero]; rfl) haction
    · rw [planRoute, planFlashLoan.eq_def, if_neg hzero,
        if_pos (routeUsesBalancerVaultSwap_of_balancerOnly honly), if_pos honly]

/-- The policy prefers the vault to a viable Aave reserve for a route the vault may lend to. -/
def PrefersVault (policy : FlashLoanPolicy) (cycle : FoundCycle) (amountIn : U256)
    (snapshot : TokenFlashLiquidity) : Prop :=
  routeUsesBalancerVaultSwap cycle = false ∧
    match policy with
    | .auto => amountIn ≤ snapshot.balancer ∨ snapshot.aave ≤ snapshot.balancer
    | .balancerOnly => True
    | .aaveOnly => False

lemma source_planRoute_balancer_iff (hviable : snapshot.aaveViable = true)
    (haction : (planRoute policy arena cycle amountIn snapshot).action ≠ .reject) :
    (planRoute policy arena cycle amountIn snapshot).source = .balancer ↔
      PrefersVault policy cycle amountIn snapshot := by
  cases hforbid : routeUsesBalancerVaultSwap cycle with
  | true =>
      refine iff_of_false (fun hsource => ?_) fun h => by simp [h.1] at hforbid
      have hallowed : routeUsesBalancerVaultSwap cycle = false :=
        not_forbid_of_source_balancer hsource haction
      simp [hallowed] at hforbid
  | false =>
      have hroute : (routeLiquidity arena cycle snapshot).of .balancer = snapshot.of .balancer :=
        of_routeLiquidity (fun _ => hforbid) (by simp)
      have hne : amountIn ≠ 0 := by
        rintro rfl
        exact haction (by rw [planRoute, planFlashLoan.eq_def, if_pos rfl]; rfl)
      simp only [planRoute, planFlashLoan.eq_def, if_neg hne, hforbid, Bool.false_eq_true, if_false,
        PrefersVault, true_and]
      cases policy with
      | auto =>
          have hauto : (planAuto amountIn (routeLiquidity arena cycle snapshot) true).source =
              .balancer ↔ amountIn ≤ (routeLiquidity arena cycle snapshot).of .balancer ∨
                snapshot.aave ≤ (routeLiquidity arena cycle snapshot).of .balancer :=
            source_planAuto_balancer_iff dodo_routeLiquidity hviable
          rwa [hroute] at hauto
      | balancerOnly => simp [source_planSingle]
      | aaveOnly =>
          dsimp only
          split_ifs <;> simp [planReject, source_planSingle]

end Route

end PolygonArb

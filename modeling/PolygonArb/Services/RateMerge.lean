import PolygonArb.Core.Types
import PolygonArb.Lib.BulkMap

/-!
# Merging token rates

`merge_token_rates` of `services/oracle/mod.rs`: the rates of one tick over the rates of the ticks before.
A refreshed token has its fresh rate or none; any other token keeps what it had.  Above the soft cap the
merge drops keys that were not refreshed, in the order the hash map hands them out, and does not ask
whether they are prior ones: a fresh rate of a token outside the refreshed set can go with them
(`merge_correct_iff`).
-/

namespace PolygonArb

open Word BulkMap

/-- `FxHashMap<TokenIndex, U256>`. -/
abbrev RateMap := AList fun _ : TokenIndex => U256

/-- `MERGED_RATES_SOFT_CAP`. -/
def mergedRatesSoftCap : ℕ := 2048

section Merge

variable (prior : RateMap) (refreshed : Finset TokenIndex) (fresh : RateMap)

/-- Something changed, or the caller wants a rebuild. -/
def needsMerge (retainStalePrior : Bool) : Bool :=
  !retainStalePrior || fresh.entries.any (fun row => prior.lookup row.1 ≠ some row.2)
    || decide (∃ token ∈ refreshed, (prior.lookup token).isSome ≠ (fresh.lookup token).isSome)

/-- Non-refreshed priors first; fresh rates over them. -/
def fullMerge : RateMap :=
  extend (extend ∅ (prior.entries.filter fun row => row.1 ∉ refreshed)) fresh.entries

/-- The keys over the cap that are dropped, `order` being the iteration order of the map. -/
def dropKeys (merged : RateMap) (order : List TokenIndex) : List TokenIndex :=
  (order.filter (· ∉ refreshed)).take (merged.keys.length - mergedRatesSoftCap)

def dropExcess (merged : RateMap) (order : List TokenIndex) : RateMap :=
  if mergedRatesSoftCap < merged.keys.length then eraseAll merged (dropKeys refreshed merged order)
  else merged

def mergeTokenRates (retainStalePrior : Bool) (order : List TokenIndex) : RateMap :=
  if prior.keys = [] then fresh
  else if needsMerge prior refreshed fresh retainStalePrior = false then prior
  else dropExcess refreshed (fullMerge prior refreshed fresh) order

/-- The tokens that have a rate before anything is dropped. -/
def mergedTokens : Finset TokenIndex :=
  prior.keys.toFinset \ refreshed ∪ fresh.keys.toFinset

/-- What a merge is for: refreshed tokens have their fresh rate or none; the others their fresh rate,
else their prior one, which may be missing over the cap only; and skipping the merge makes no difference
within the cap. -/
def MergesRates (retainStalePrior : Bool) (result : RateMap) : Prop :=
  (∀ token ∈ refreshed, result.lookup token = fresh.lookup token) ∧
    (∀ token, token ∉ refreshed → ∀ rate, fresh.lookup token = some rate →
      result.lookup token = some rate) ∧
    (∀ token, token ∉ refreshed → fresh.lookup token = none →
      result.lookup token = prior.lookup token ∨
        mergedRatesSoftCap < (mergedTokens prior refreshed fresh).card ∧ result.lookup token = none) ∧
    (needsMerge prior refreshed fresh retainStalePrior = false →
      (mergedTokens prior refreshed fresh).card ≤ mergedRatesSoftCap →
      ∀ token, result.lookup token = (fullMerge prior refreshed fresh).lookup token)

end Merge

section Lookup

variable {prior fresh result : RateMap} {refreshed : Finset TokenIndex} {token : TokenIndex}
  {retainStalePrior : Bool} {order : List TokenIndex}

lemma lookup_fullMerge : (fullMerge prior refreshed fresh).lookup token =
    (fresh.lookup token).or (if token ∈ refreshed then none else prior.lookup token) := by
  rw [fullMerge, lookup_extend fresh.nodupKeys,
    lookup_extend (prior.nodupKeys.sublist List.filter_sublist), dlookup_filter (· ∉ refreshed)]
  rw [AList.lookup_empty, Option.or_none, ite_not]
  rfl

lemma length_fullMerge :
    (fullMerge prior refreshed fresh).keys.length = (mergedTokens prior refreshed fresh).card := by
  refine length_keys_eq_card fun token => ?_
  rw [lookup_fullMerge, mergedTokens, Finset.mem_union, Finset.mem_sdiff, List.mem_toFinset,
    List.mem_toFinset, mem_keys_iff, mem_keys_iff]
  split_ifs with hrefreshed <;> simp [hrefreshed, or_comm]

/-- Nothing is missing from the prior map when the merge is skipped. -/
lemma agrees_of_needsMerge_eq_false
    (h : needsMerge prior refreshed fresh retainStalePrior = false) :
    (∀ token rate, fresh.lookup token = some rate → prior.lookup token = some rate) ∧
      ∀ token ∈ refreshed, prior.lookup token = fresh.lookup token := by
  simp only [needsMerge, Bool.or_eq_false_iff, List.any_eq_false, decide_eq_true_eq, not_not,
    decide_eq_false_iff_not, not_exists, not_and] at h
  rcases h with ⟨⟨-, hfresh⟩, hrefreshed⟩
  have hagree : ∀ token rate, fresh.lookup token = some rate → prior.lookup token = some rate := by
    intro token rate hrate
    exact hfresh ⟨token, rate⟩ (List.of_mem_dlookup hrate)
  refine ⟨hagree, fun token htoken => ?_⟩
  cases hrate : fresh.lookup token with
  | some rate => exact hagree token rate hrate
  | none =>
      have hsame := hrefreshed token htoken
      rw [hrate] at hsame
      simpa using hsame

/-- Nothing is lost: the result is the full merge. -/
lemma merges_of_lookup_eq
    (h : ∀ token, result.lookup token = (fullMerge prior refreshed fresh).lookup token) :
    MergesRates prior refreshed fresh retainStalePrior result := by
  refine ⟨fun token htoken => ?_, fun token htoken rate hrate => ?_, fun token htoken hnone => ?_,
    fun _ _ => h⟩
  · rw [h, lookup_fullMerge, if_pos htoken, Option.or_none]
  · rw [h, lookup_fullMerge, hrate, Option.some_or]
  · rw [h, lookup_fullMerge, hnone, Option.none_or, if_neg htoken]
    exact Or.inl rfl

/-- The shortcut: the prior map is the full merge. -/
lemma lookup_prior_eq (h : needsMerge prior refreshed fresh retainStalePrior = false) :
    prior.lookup token = (fullMerge prior refreshed fresh).lookup token := by
  rcases agrees_of_needsMerge_eq_false h with ⟨hagree, hrefreshed⟩
  rw [lookup_fullMerge]
  cases hrate : fresh.lookup token with
  | some rate => rw [hagree token rate hrate, Option.some_or]
  | none =>
      rw [Option.none_or]
      split_ifs with htoken
      · rw [hrefreshed token htoken, hrate]
      · rfl

/-- Only keys that were not refreshed are dropped. -/
lemma merges_dropExcess (hfresh : ∀ token ∈ fresh.keys, token ∈ refreshed)
    (hover : mergedRatesSoftCap < (mergedTokens prior refreshed fresh).card) :
    MergesRates prior refreshed fresh retainStalePrior
      (dropExcess refreshed (fullMerge prior refreshed fresh) order) := by
  have hdrop : ∀ token, (dropExcess refreshed (fullMerge prior refreshed fresh) order).lookup token =
      if token ∈ dropKeys refreshed (fullMerge prior refreshed fresh) order then none
      else (fullMerge prior refreshed fresh).lookup token := by
    intro token
    rw [dropExcess, length_fullMerge, if_pos hover, lookup_eraseAll]
  refine ⟨fun token htoken => ?_, fun token htoken rate hrate => ?_, fun token htoken hnone => ?_,
    fun _ hle => absurd hover (by omega)⟩
  · have hkept : token ∉ dropKeys refreshed (fullMerge prior refreshed fresh) order := by
      intro hmem
      have hout := (List.mem_filter.mp (List.mem_of_mem_take hmem)).2
      simp [htoken] at hout
    rw [hdrop, if_neg hkept, lookup_fullMerge, if_pos htoken, Option.or_none]
  · exact absurd (hfresh token (mem_keys_iff.mpr (by rw [hrate]; rfl))) htoken
  · rw [hdrop]
    split_ifs
    · exact Or.inr ⟨hover, rfl⟩
    · rw [lookup_fullMerge, hnone, Option.none_or, if_neg htoken]
      exact Or.inl rfl

/-- Over the cap a fresh rate outside the refreshed set goes when its key comes first. -/
lemma lookup_mergeTokenRates_of_first (hprior : prior.keys ≠ [])
    (hmerge : needsMerge prior refreshed fresh retainStalePrior = true)
    (hover : mergedRatesSoftCap < (mergedTokens prior refreshed fresh).card)
    (htoken : token ∉ refreshed) :
    (mergeTokenRates prior refreshed fresh retainStalePrior (token :: order)).lookup token = none := by
  rw [mergeTokenRates, if_neg hprior, hmerge, if_neg (by simp), dropExcess, length_fullMerge,
    if_pos hover, lookup_eraseAll, if_pos]
  rw [dropKeys, length_fullMerge, List.filter_cons_of_pos (by simpa using htoken)]
  cases hroom : (mergedTokens prior refreshed fresh).card - mergedRatesSoftCap with
  | zero => omega
  | succ room => simp

/-- Whatever the iteration order of the map, a merge does what it is for exactly when there is no prior
map, or nothing changed, or the merge is within the cap, or every fresh rate is of a refreshed token. -/
theorem merge_correct_iff :
    (∀ order : List TokenIndex, order.Perm (fullMerge prior refreshed fresh).keys →
        MergesRates prior refreshed fresh retainStalePrior
          (mergeTokenRates prior refreshed fresh retainStalePrior order)) ↔
      prior.keys = [] ∨ needsMerge prior refreshed fresh retainStalePrior = false ∨
        (mergedTokens prior refreshed fresh).card ≤ mergedRatesSoftCap ∨
        ∀ token ∈ fresh.keys, token ∈ refreshed := by
  constructor
  · intro h
    by_contra hnot
    simp only [not_or, not_forall, Bool.not_eq_false, Nat.not_le] at hnot
    rcases hnot with ⟨hprior, hmerge, hover, token, htoken, hrefreshed⟩
    rcases Option.isSome_iff_exists.mp (mem_keys_iff.mp htoken) with ⟨rate, hrate⟩
    have hkey : token ∈ (fullMerge prior refreshed fresh).keys := by
      rw [mem_keys_iff, lookup_fullMerge, hrate, Option.some_or]
      rfl
    have hfirst := (h _ (List.perm_cons_erase hkey).symm).2.1 token hrefreshed rate hrate
    rw [lookup_mergeTokenRates_of_first hprior hmerge hover hrefreshed] at hfirst
    cases hfirst
  · intro h order _
    rw [mergeTokenRates]
    split_ifs with hprior hmerge
    · have hempty : ∀ token, prior.lookup token = none := by
        intro token
        rw [← Option.not_isSome_iff_eq_none, ← mem_keys_iff, hprior]
        exact List.not_mem_nil
      refine merges_of_lookup_eq fun token => ?_
      rw [lookup_fullMerge, hempty, ite_self, Option.or_none]
    · exact merges_of_lookup_eq fun token => lookup_prior_eq hmerge
    · rcases Nat.lt_or_ge mergedRatesSoftCap (mergedTokens prior refreshed fresh).card with hover | hle
      · refine merges_dropExcess ?_ hover
        rcases h with hnil | hskip | hle | hall
        · exact absurd hnil hprior
        · exact absurd hskip hmerge
        · omega
        · exact hall
      · refine merges_of_lookup_eq fun token => ?_
        rw [dropExcess, length_fullMerge, if_neg (by omega)]

/-- The rates of the first tokens, all one. -/
def rangeRates (n : ℕ) : RateMap where
  entries := (List.range n).map fun token => ⟨token, 1⟩
  nodupKeys := by
    rw [List.NodupKeys, List.keys, List.map_map]
    exact List.nodup_range.map fun _ _ h => h

/-- A full prior map, nothing refreshed and one fresh rate: the merge can drop the fresh one. -/
theorem merge_drops_fresh_rate :
    ∃ (prior fresh : RateMap) (order : List TokenIndex),
      order.Perm (fullMerge prior ∅ fresh).keys ∧
        ¬ MergesRates prior ∅ fresh true (mergeTokenRates prior ∅ fresh true order) := by
  rcases (⟨2047, rfl⟩ : ∃ n, n = 2047) with ⟨n, hn⟩
  have hkeys : (rangeRates (n + 1)).keys = List.range (n + 1) := by
    simp [rangeRates, AList.keys, List.keys, Function.comp_def]
  have hfresh : (AList.singleton (n + 1) 1 : RateMap).lookup (n + 1) = some 1 := by
    simp [AList.lookup, AList.singleton]
  have hkey : n + 1 ∈ (fullMerge (rangeRates (n + 1)) ∅ (AList.singleton (n + 1) 1)).keys := by
    rw [mem_keys_iff, lookup_fullMerge, hfresh]
    rfl
  refine ⟨rangeRates (n + 1), AList.singleton (n + 1) 1, _, (List.perm_cons_erase hkey).symm, ?_⟩
  · intro h
    have hrate := h.2.1 (n + 1) (Finset.notMem_empty _) 1 hfresh
    rw [lookup_mergeTokenRates_of_first] at hrate
    · cases hrate
    · rw [hkeys, List.range_succ]
      simp
    · have hnone : (rangeRates (n + 1)).lookup (n + 1) = none := by
        rw [← Option.not_isSome_iff_eq_none, ← mem_keys_iff, hkeys]
        simp
      simp [needsMerge, AList.singleton, hnone]
    · have htokens : mergedTokens (rangeRates (n + 1)) ∅ (AList.singleton (n + 1) 1) =
          Finset.range (n + 2) := by
        ext token
        simp only [mergedTokens, hkeys, AList.keys_singleton, Finset.sdiff_empty, Finset.mem_union,
          List.mem_toFinset, List.mem_range, List.mem_singleton, Finset.mem_range]
        exact Nat.lt_succ_iff_lt_or_eq.symm
      rw [htokens, Finset.card_range, mergedRatesSoftCap]
      omega
    · exact Finset.notMem_empty _

end Lookup

end PolygonArb

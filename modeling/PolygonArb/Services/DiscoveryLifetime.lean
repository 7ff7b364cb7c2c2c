import PolygonArb.Services.DiscoveryRun

/-!
# The registry over whole runs

What every run of `DiscoveryRun` keeps of the registry, with nothing asked of the index itself.

* `discovery_indexes_exact` — both indexes of the registry are the inverses of its pools, as long as every address
  belongs to one key.
* `pruned_after_six` — a key only leaves the registry by a pruning, after `MAX_INVALID_FETCHES` prunings in a row
  that have found the address of its pool invalid.
* `bootstrap_misses_update` — a row that is written behind the keyset of a running bootstrap, at a block below the
  one of the cursor it ends with, is read neither by it nor by the passes after it.
-/

namespace PolygonArb

open DiscoveryState IndexTable Transition

namespace DiscoveryRun

variable {rd : IndexReader} {s s' : DiscoveryRun}

/-! ## The indexes in every run -/

section Indexes

variable {owner : Address → String}

/-- The address of every pool that a step brings in belongs to the pool's key. -/
def Owned (rd : IndexReader) (owner : Address → String) (_ : DiscoveryRun) : DiscoveryStep → Prop
  | .index table _ => ∀ row ∈ table, ∀ pool, rd.poolOf row = some pool → owner pool.address = pool.poolKey
  | .finish gap _ => ∀ pool ∈ gap, owner pool.address = pool.poolKey
  | _ => True

/-- What a pass has read. -/
def jobPools : DiscoveryJob → List PoolRecord
  | .bootstrap _ pools => pools
  | .incremental _ pools => pools
  | .fetched _ _ pools => pools

lemma mem_jobPools_readPage {table : List PoolMetaRow} {job job' : DiscoveryJob} {pool : PoolRecord}
    (hpage : readPage rd table job = some job') (hpool : pool ∈ jobPools job') :
    pool ∈ jobPools job ∨ ∃ row ∈ table, rd.poolOf row = some pool := by
  cases job with
  | bootstrap keyset pools =>
      rw [readPage, Option.some.injEq] at hpage
      have hpools : jobPools job' = pools ++ (keysetRows rd table keyset (max rd.bootstrapBatch 1)).filterMap rd.poolOf := by
        rw [← hpage]
        split <;> rfl
      rw [hpools] at hpool
      refine (List.mem_append.mp hpool).imp_right fun hnew => ?_
      obtain ⟨row, hrow, hpool⟩ := List.mem_filterMap.mp hnew
      exact ⟨row, (mem_of_keysetRows hrow).1, hpool⟩
  | incremental cursor pools =>
      obtain ⟨⟨page, next, more⟩, hquery, rfl⟩ := Option.map_eq_some_iff.mp hpage
      have hpools : jobPools (if more = true then .incremental next (pools ++ page)
          else .fetched false next (pools ++ page)) = pools ++ page := by
        split <;> rfl
      rw [hpools] at hpool
      refine (List.mem_append.mp hpool).imp_right fun hnew => ?_
      rw [fetchPoolMetaIncremental] at hquery
      split_ifs at hquery
      simp only [Option.some.injEq, Prod.mk.injEq] at hquery
      rw [← hquery.1] at hnew
      obtain ⟨e, he, hpool⟩ := List.mem_filterMap.mp hnew
      exact ⟨e.row, (asked_of_page he).row_mem.1, hpool⟩
  | fetched _ _ _ => exact absurd hpage (by simp [readPage])

/-- The pools that are registered, read or in the index have addresses of their own. -/
structure Owners (rd : IndexReader) (owner : Address → String) (s : DiscoveryRun) : Prop where
  table : ∀ row ∈ s.table, ∀ pool, rd.poolOf row = some pool → owner pool.address = pool.poolKey
  job : ∀ job, s.job = some job → ∀ pool ∈ jobPools job, owner pool.address = pool.poolKey
  registered : s.registry.Registered
  exact : Exact owner s.registry

lemma owners_step {a : DiscoveryStep} (h : s.Owners rd owner) (hok : s.Owned rd owner a)
    (hstep : step rd s a = some s') : s'.Owners rd owner := by
  cases a with
  | index table head =>
      rw [step, Option.some.injEq] at hstep
      subst hstep
      exact ⟨hok, h.job, h.registered, h.exact⟩
  | start notified =>
      obtain ⟨job, rfl, hcases⟩ := step_start hstep
      refine ⟨h.table, ?_, h.registered, h.exact⟩
      intro job₁ hjob₁
      obtain rfl := Option.some.inj hjob₁
      rcases hcases with ⟨rfl, -⟩ | ⟨rfl, -⟩ <;> simp [jobPools]
  | page =>
      obtain ⟨job, job', hjob, hpage, rfl⟩ := step_page hstep
      refine ⟨h.table, ?_, h.registered, h.exact⟩
      intro job₁ hjob₁ pool hpool
      obtain rfl := Option.some.inj hjob₁
      rcases mem_jobPools_readPage hpage hpool with hold | ⟨row, hrow, hpool⟩
      · exact h.job job hjob pool hold
      · exact h.table row hrow pool hpool
  | fail =>
      rw [step, Option.some.injEq] at hstep
      subst hstep
      exact ⟨h.table, by simp, h.registered, h.exact⟩
  | finish gap backend =>
      obtain ⟨forced, cursor, pools, hjob, hmerge⟩ := step_finish hstep
      have hregistered := (mergedRun_of_merge h.registered hmerge).registered
      obtain ⟨⟨registry, replaced⟩, hrun, rfl⟩ := Option.map_eq_some_iff.mp hmerge
      have hexact : Exact owner registry := by
        refine h.exact.mergePools h.registered ?_ hrun
        intro pool hpool
        obtain ⟨found, hfound, -, rfl⟩ := mem_applyBackendPools.mp hpool
        rw [address_enrich, poolKey_enrich]
        rcases List.mem_append.mp hfound with hread | hgap
        · exact h.job _ hjob found hread
        · cases forced with
          | true => exact absurd hgap (by simp)
          | false => exact hok found (by simpa using hgap)
      exact ⟨h.table, by simp [afterMerge], hregistered, ⟨hexact.owned, hexact.known⟩⟩
  | prune invalid =>
      rw [step, Option.some.injEq] at hstep
      subst hstep
      exact ⟨h.table, h.job, h.registered.prune invalid, h.exact.prune invalid⟩

/-- In every run both indexes of the registry answer exactly the places of its pools, whatever is merged, replaced
and pruned, as long as an address belongs to one key. -/
theorem discovery_indexes_exact (h : Reachable (step rd) (Owned rd owner)
      (fun s => s.Initial ∧ ∀ row ∈ s.table, ∀ pool, rd.poolOf row = some pool → owner pool.address = pool.poolKey) s) :
    InverseIndex (s.registry.discovered.map PoolRecord.poolKey) s.registry.poolKeyIndex ∧
      InverseIndex (s.registry.discovered.map fun pool => pool.address) s.registry.addressIndex := by
  have howners : s.Owners rd owner := by
    refine h.inv _ ?_ fun _ _ _ => owners_step
    rintro s ⟨hinitial, htable⟩
    refine ⟨htable, ?_, ?_, ?_⟩
    · intro job hjob
      rw [hinitial.job] at hjob
      exact absurd hjob (by simp)
    · rw [hinitial.registry]
      exact registered_init
    · rw [hinitial.registry]
      exact exact_init
  exact ⟨howners.registered.keys, howners.exact.inverseIndex howners.registered⟩

/-! A pool whose address column changes, so that its address is replaced, beside one that is pruned. -/

def addressRow (address : String) (updatedAtBlock : Option ℕ) : PoolMetaRow :=
  ⟨"1111111111111111111111111111111111111111", 9, updatedAtBlock, { movedRow with address := some address }⟩

def firstTable : List PoolMetaRow := [oneRow, addressRow "0x2222222222222222222222222222222222222222" none]

def secondTable : List PoolMetaRow := [oneRow, addressRow "0x3333333333333333333333333333333333333333" (some 12)]

/-- Both addresses of the second pool are its own. -/
def twoOwners (address : Address) : String :=
  if address = 170 then "0x00000000000000000000000000000000000000000000000000000000000000aa"
  else "0x1111111111111111111111111111111111111111"

lemma owned_of_all {table : List PoolMetaRow} (h : (table.all fun row => (oneReader.poolOf row).all fun pool =>
    twoOwners pool.address = pool.poolKey) = true) :
    ∀ row ∈ table, ∀ pool, oneReader.poolOf row = some pool → twoOwners pool.address = pool.poolKey := by
  intro row hrow pool hpool
  have hall := List.all_eq_true.mp h row hrow
  rw [hpool, Option.all_some] at hall
  exact of_decide_eq_true hall

lemma initial_firstTable : (unread firstTable 10).Initial := by
  refine initial_unread ⟨⟨by simp [firstTable, oneRow, addressRow], by simp [firstTable, oneRow, addressRow]⟩, ?_,
    ⟨by simp [firstTable, oneRow, addressRow], by simp [firstTable, oneRow, addressRow]⟩, by decide⟩
  have hkeys : (firstTable.map fun row => poolKeyOfId row.id).Nodup := by decide +kernel
  intro row hrow row' hrow' key hkey hkey'
  exact List.inj_on_of_nodup_map hkeys hrow hrow' (hkey.trans hkey'.symm)

def replacingRun : List DiscoveryStep :=
  [.start false, .page, .page, .page, .finish [] [], .index secondTable 12, .start false, .page, .finish [] []] ++
    List.replicate 6 (.prune {170})

theorem discovery_indexes_exact_replaced : ∃ s : DiscoveryRun,
    play (step oneReader) (unread firstTable 10) replacingRun = some s ∧
    s.registry.discovered.map (fun pool => pool.address) = [0x3333333333333333333333333333333333333333#160] ∧
    InverseIndex (s.registry.discovered.map PoolRecord.poolKey) s.registry.poolKeyIndex ∧
    InverseIndex (s.registry.discovered.map fun pool => pool.address) s.registry.addressIndex := by
  have hplay : (play (step oneReader) (unread firstTable 10) replacingRun).map
      (fun s => s.registry.discovered.map fun pool => pool.address) =
      some [0x3333333333333333333333333333333333333333#160] := by decide +kernel
  obtain ⟨s, hs, haddresses⟩ := Option.map_eq_some_iff.mp hplay
  have hfirst := @owned_of_all firstTable (by decide +kernel)
  have hsecond := @owned_of_all secondTable (by decide +kernel)
  have hallowed : Transition.Allowed (step oneReader) (Owned oneReader twoOwners) (unread firstTable 10)
      replacingRun := by
    simp only [replacingRun, List.replicate, List.cons_append, List.nil_append, Transition.Allowed, Owned, true_and,
      List.not_mem_nil, false_implies, implies_true, and_true]
    exact fun _ _ _ _ _ _ _ _ _ _ => hsecond
  exact ⟨s, hs, haddresses, discovery_indexes_exact (hallowed.reachable (.init ⟨initial_firstTable, hfirst⟩) hs)⟩

end Indexes

/-! ## Leaving the registry -/

section Leaving

variable {address : Address} {as past : List DiscoveryStep} {key : String} {pool : PoolRecord}

/-- How many of the last prunings in a row have found the address invalid; the latest step is the first. -/
def streak (address : Address) : List DiscoveryStep → ℕ
  | .prune invalid :: past => if address ∈ invalid then streak address past + 1 else 0
  | _ :: past => streak address past
  | [] => 0

/-- What a step does to the registry. -/
lemma step_registry {a : DiscoveryStep} (address : Address) (h : s.registry.Registered) (hstep : step rd s a = some s') :
    s'.registry.Registered ∧ ((∃ invalid, a = .prune invalid ∧ s'.registry = s.registry.pruneDeadPools invalid) ∨
      (∀ past, streak address (a :: past) = streak address past) ∧
        s'.registry.invalidFetchCount = s.registry.invalidFetchCount ∧
        ∀ key, s.registry.lookup key ≠ none → s'.registry.lookup key ≠ none) := by
  cases a with
  | index table head =>
      rw [step, Option.some.injEq] at hstep
      subst hstep
      exact ⟨h, .inr ⟨fun _ => rfl, rfl, fun _ hne => hne⟩⟩
  | start notified =>
      obtain ⟨job, rfl, -⟩ := step_start hstep
      exact ⟨h, .inr ⟨fun _ => rfl, rfl, fun _ hne => hne⟩⟩
  | page =>
      obtain ⟨job, job', -, -, rfl⟩ := step_page hstep
      exact ⟨h, .inr ⟨fun _ => rfl, rfl, fun _ hne => hne⟩⟩
  | fail =>
      rw [step, Option.some.injEq] at hstep
      subst hstep
      exact ⟨h, .inr ⟨fun _ => rfl, rfl, fun _ hne => hne⟩⟩
  | finish gap backend =>
      obtain ⟨forced, cursor, pools, -, hmerge⟩ := step_finish hstep
      have hmerged := mergedRun_of_merge h hmerge
      refine ⟨hmerged.registered, .inr ⟨fun _ => rfl, hmerged.counts, ?_⟩⟩
      intro key hne hnone
      have hoverlay := (hmerged.lookup key).symm.trans hnone
      rw [overlay, Option.or_eq_none_iff] at hoverlay
      exact hne hoverlay.2
  | prune invalid =>
      rw [step, Option.some.injEq] at hstep
      subst hstep
      exact ⟨h.prune invalid, .inl ⟨invalid, rfl, rfl⟩⟩

/-- The count of an address after a pruning. -/
lemma invalidFetchCount_prune_le (registry : DiscoveryState) (invalid : Finset Address) :
    (registry.pruneDeadPools invalid).invalidFetchCount address ≤
      if address ∈ invalid then registry.invalidFetchCount address + 1 else 0 := by
  have hcount : (registry.countInvalid invalid).1 address ≤
      if address ∈ invalid then registry.invalidFetchCount address + 1 else 0 := by
    simp only [countInvalid]
    split_ifs
    · exact min_le_left _ _
    · exact le_rfl
  refine le_trans ?_ hcount
  simp only [pruneDeadPools]
  split_ifs
  · exact le_rfl
  · show (if address ∈ (registry.countInvalid invalid).2 then 0 else (registry.countInvalid invalid).1 address) ≤ _
    split_ifs
    · exact Nat.zero_le _
    · exact le_rfl

/-- The count of an address is not above its streak. -/
lemma count_le_streak (h : s.registry.Registered) (hcount : s.registry.invalidFetchCount address ≤ streak address past)
    (hplay : play (step rd) s as = some s') : s'.registry.Registered ∧
      s'.registry.invalidFetchCount address ≤ streak address (as.reverse ++ past) := by
  induction as generalizing s past with
  | nil =>
      rw [play, Option.some.injEq] at hplay
      subst hplay
      exact ⟨h, hcount⟩
  | cons a as ih =>
      obtain ⟨s₁, hstep, hrest⟩ := Option.bind_eq_some_iff.mp hplay
      obtain ⟨hregistered, hcases⟩ := step_registry address h hstep
      rw [List.reverse_cons, List.append_assoc, List.singleton_append]
      refine ih hregistered ?_ hrest
      rcases hcases with ⟨invalid, rfl, hpruned⟩ | ⟨hstreak, hsame, -⟩
      · rw [hpruned, streak]
        refine (invalidFetchCount_prune_le _ _).trans ?_
        split_ifs
        · exact Nat.add_le_add_right hcount 1
        · exact le_rfl
      · rw [hstreak, hsame]
        exact hcount

/-- In every run a key only leaves the registry by a pruning, and only when the last six prunings in a row, this one
among them, have found the address of its pool invalid. -/
theorem pruned_after_six {s₀ : DiscoveryRun} {a : DiscoveryStep} (hinit : s₀.registry = .init)
    (hplay : play (step rd) s₀ as = some s) (hold : s.registry.lookup key = some pool)
    (hstep : step rd s a = some s') (hgone : s'.registry.lookup key = none) :
    ∃ invalid, a = .prune invalid ∧ pool.address ∈ invalid ∧
      maxInvalidFetches ≤ streak pool.address (a :: as.reverse) := by
  have hstart : s₀.registry.Registered := by
    rw [hinit]
    exact registered_init
  have hzero : s₀.registry.invalidFetchCount pool.address ≤ streak pool.address [] := by
    rw [hinit]
    exact le_rfl
  obtain ⟨hregistered, hcount⟩ := count_le_streak hstart hzero hplay
  rw [List.append_nil] at hcount
  rcases (step_registry pool.address hregistered hstep).2 with ⟨invalid, rfl, hpruned⟩ | ⟨-, -, hstays⟩
  · rw [hpruned, hregistered.lookup_prune invalid key, hold] at hgone
    have hdead : pool.address ∈ (s.registry.countInvalid invalid).2 := by
      by_contra halive
      rw [Option.filter_some, if_pos (by simpa using halive)] at hgone
      exact absurd hgone (by simp)
    obtain ⟨hinvalid, hsix⟩ := Finset.mem_filter.mp hdead
    simp only [if_pos hinvalid] at hsix
    refine ⟨invalid, rfl, hinvalid, ?_⟩
    rw [streak, if_pos hinvalid]
    have hle := hsix.trans (min_le_left _ _)
    omega
  · exact absurd hgone (hstays key (by rw [hold]; simp))

/-- Six prunings take the pool of the row out. -/
theorem pruned_after_six_oneRow : ∃ (s s' : DiscoveryRun) (pool : PoolRecord),
    play (step oneReader) (unread [oneRow] 10) ([.start false, .page, .page, .finish [] []] ++ List.replicate 5 (.prune {170})) =
      some s ∧
    s.registry.lookup "0x00000000000000000000000000000000000000000000000000000000000000aa" = some pool ∧
    step oneReader s (.prune {170}) = some s' ∧
    s'.registry.lookup "0x00000000000000000000000000000000000000000000000000000000000000aa" = none ∧
    ∃ invalid, DiscoveryStep.prune {170} = .prune invalid ∧ pool.address ∈ invalid ∧
      maxInvalidFetches ≤ streak pool.address (.prune {170} ::
        (DiscoveryStep.start false :: .page :: .page :: .finish [] [] :: List.replicate 5 (.prune {170})).reverse) := by
  have hplay : (play (step oneReader) (unread [oneRow] 10)
      ([.start false, .page, .page, .finish [] []] ++ List.replicate 5 (.prune {170}))).map (fun s =>
        ((s.registry.lookup "0x00000000000000000000000000000000000000000000000000000000000000aa").map
          fun pool => pool.address,
        (s.registry.pruneDeadPools {170}).discovered.map fun pool => pool.address)) = some (some 170, []) := by
    decide +kernel
  obtain ⟨s, hs, hfacts⟩ := Option.map_eq_some_iff.mp hplay
  rw [Prod.mk.injEq] at hfacts
  obtain ⟨pool, hpool, -⟩ := Option.map_eq_some_iff.mp hfacts.1
  have hgone : (s.registry.pruneDeadPools {170}).lookup
      "0x00000000000000000000000000000000000000000000000000000000000000aa" = none := by
    rw [lookup, List.map_eq_nil_iff.mp hfacts.2]
    simp
  exact ⟨s, _, pool, hs, hpool, rfl, hgone, pruned_after_six rfl hs hpool rfl hgone⟩

end Leaving

/-! ## What a bootstrap misses -/

section Missed

variable {row : PoolMetaRow} {pool : PoolRecord} {as : List DiscoveryStep}

/-- A pass that does not read the row, nor any pass after it. -/
def PassesOver (row : PoolMetaRow) (pool : PoolRecord) (registry : DiscoveryState) : DiscoveryJob → Prop
  | .bootstrap keyset pools => row.created ≤ keyset.mark ∧ pool ∉ pools
  | .incremental cursor pools => ¬Pending registry.discoveryCursor row ∧ ¬Pending cursor row ∧ pool ∉ pools
  | .fetched forced cursor pools =>
      (forced = false → ¬Pending registry.discoveryCursor row) ∧ ¬Pending cursor row ∧ pool ∉ pools

/-- What the backend makes of another pool differs from this one. -/
def Unfilled (pool : PoolRecord) : Prop := ¬(pool.protocol = .balancerV2 ∧ pool.poolId.isSome)

/-- No pass will read the row, and its pool is not registered. -/
structure Missed (rd : IndexReader) (row : PoolMetaRow) (pool : PoolRecord) (s : DiscoveryRun) : Prop where
  row_only : ∀ other ∈ s.table, rd.poolOf other = some pool → other = row
  registered : s.registry.Registered
  unregistered : Unfilled pool → s.registry.lookup pool.poolKey ≠ some pool
  idle : s.job = none → ¬Pending s.registry.discoveryCursor row
  passed : ∀ job, s.job = some job → PassesOver row pool s.registry job

/-- The row is not written again and no other archive has the pool.  The bootstrap ends, at a block above the update of
the row, and no other begins. -/
def Quiet (rd : IndexReader) (row : PoolMetaRow) (pool : PoolRecord) (s : DiscoveryRun) : DiscoveryStep → Prop
  | .index table _ => ∀ other ∈ table, rd.poolOf other = some pool → other = row
  | .start notified => forcesBootstrap s.registry notified = false
  | .page => ∀ cursor pools, s.job.bind (readPage rd s.table) = some (.fetched true cursor pools) →
      ∀ block, row.updatedAtBlock = some block → block < cursor.lastUpdatedBlock
  | .fail => ∀ job, s.job = some job → ∃ cursor pools, job = .incremental cursor pools
  | .finish gap _ => pool ∉ gap
  | .prune _ => True

/-- A page of the keyset query has other rows, and its keyset does not go back. -/
lemma keysetRows_over (limit : ℕ) {table : List PoolMetaRow} {keyset : PoolMetaKeyset}
    (honly : ∀ other ∈ table, rd.poolOf other = some pool → other = row) (hrow : row.created ≤ keyset.mark) :
    pool ∉ (fetchPoolMetaPage rd table keyset limit).1 ∧
      row.created ≤ (fetchPoolMetaPage rd table keyset limit).2.1.mark := by
  constructor
  · intro hmem
    obtain ⟨other, hother, hpool⟩ := List.mem_filterMap.mp hmem
    obtain ⟨htable, hafter, -⟩ := mem_of_keysetRows hother
    rw [honly other htable hpool] at hafter
    exact absurd hafter (not_lt.mpr hrow)
  · simp only [fetchPoolMetaPage]
    cases hlast : (keysetRows rd table keyset limit).getLast? with
    | none => exact hrow
    | some last =>
        obtain ⟨-, hafter, -⟩ := mem_of_keysetRows (List.mem_of_getLast? hlast)
        exact hrow.trans hafter.le

/-- The cursor of a bootstrap is past what its keyset is past. -/
lemma not_pending_bootstrapCursor {keyset : PoolMetaKeyset} {pools : List PoolRecord}
    (hrow : row.created ≤ keyset.mark) (hupdated : ∀ block, row.updatedAtBlock = some block →
      block < (bootstrapCursor keyset pools).lastUpdatedBlock) : ¬Pending (bootstrapCursor keyset pools) row := by
  have hkeyset : keyset.mark ≤ (bootstrapCursor keyset pools).created := by
    have hle : keyset.createdBlock ≤ (bootstrapCursor keyset pools).lastBlock :=
      (le_max_left _ _).trans (le_max_left _ _)
    rcases hle.lt_or_eq with hlt | heq
    · exact (mark_lt.mpr (.inl hlt)).le
    · rw [DiscoveryCursor.created, ← heq]
      exact le_rfl
  rintro (hnew | ⟨block, hblock, hahead⟩)
  · exact absurd hnew (not_lt.mpr (hrow.trans hkeyset))
  · exact absurd hahead (mark_lt.mpr (.inl (hupdated block hblock))).asymm

lemma passesOver_readPage {table : List PoolMetaRow} {registry : DiscoveryState} {job job' : DiscoveryJob}
    (honly : ∀ other ∈ table, rd.poolOf other = some pool → other = row) (h : PassesOver row pool registry job)
    (hends : ∀ cursor pools, readPage rd table job = some (.fetched true cursor pools) →
      ∀ block, row.updatedAtBlock = some block → block < cursor.lastUpdatedBlock)
    (hpage : readPage rd table job = some job') : PassesOver row pool registry job' := by
  cases job with
  | bootstrap keyset pools =>
      obtain ⟨hrow, hpools⟩ := h
      obtain ⟨hpageOver, hnext⟩ := keysetRows_over (max rd.bootstrapBatch 1) honly hrow
      have hread : pool ∉ pools ++ (fetchPoolMetaPage rd table keyset (max rd.bootstrapBatch 1)).1 := by
        simp [hpools, hpageOver]
      have hsame := hpage
      rw [readPage, Option.some.injEq] at hpage
      split_ifs at hpage
      · rw [← hpage]
        exact ⟨hnext, hread⟩
      · subst hpage
        exact ⟨by simp, not_pending_bootstrapCursor hnext (hends _ _ hsame), hread⟩
  | incremental cursor pools =>
      obtain ⟨⟨page, next, more⟩, hquery, rfl⟩ := Option.map_eq_some_iff.mp hpage
      rw [fetchPoolMetaIncremental] at hquery
      split_ifs at hquery
      simp only [Option.some.injEq, Prod.mk.injEq] at hquery
      obtain ⟨rfl, rfl, -⟩ := hquery
      obtain ⟨hbehind, hpassed, hpools⟩ := h
      have hnext : ¬Pending (cursor.advanceAll (incrementalRows rd table cursor)) row ∧
          pool ∉ pools ++ (incrementalRows rd table cursor).filterMap fun e => rd.poolOf e.row := by
        refine ⟨fun hpending => hpassed (pending_of_advanceAll hpending), ?_⟩
        intro hmem
        rcases List.mem_append.mp hmem with hold | hnew
        · exact hpools hold
        · obtain ⟨e, he, hpool⟩ := List.mem_filterMap.mp hnew
          have hrow := honly e.row (asked_of_page he).row_mem.1 hpool
          exact hpassed (hrow ▸ pending_of_page he)
      cases more with
      | true => exact ⟨hbehind, hnext⟩
      | false => exact ⟨fun _ => hbehind, hnext⟩
  | fetched _ _ _ => exact absurd hpage (by simp [readPage])

/-- A merge of other pools does not register this one. -/
lemma MergedRun.lookup_ne {cursor : DiscoveryCursor} {pools : List PoolRecord} {backend : List BackendPool}
    (h : s.MergedRun cursor pools backend s') (hunfilled : Unfilled pool)
    (hother : s.registry.lookup pool.poolKey ≠ some pool) (hpools : pool ∉ pools) :
    s'.registry.lookup pool.poolKey ≠ some pool := by
  rw [h.lookup, overlay]
  cases hlast : lastOf (applyBackendPools backend pools) pool.poolKey with
  | none => simpa using hother
  | some last =>
      rw [Option.some_or]
      intro heq
      obtain rfl := Option.some.inj heq
      obtain ⟨found, hfound, -, henrich⟩ := mem_applyBackendPools.mp (lastOf_eq_some hlast).1
      rcases enrich_eq_or backend found with hsame | hfilled
      · exact hpools ((hsame.symm.trans henrich) ▸ hfound)
      · exact hunfilled (henrich ▸ hfilled)

lemma missed_step {a : DiscoveryStep} (h : s.Missed rd row pool) (hok : s.Quiet rd row pool a)
    (hstep : step rd s a = some s') : s'.Missed rd row pool := by
  cases a with
  | index table head =>
      rw [step, Option.some.injEq] at hstep
      subst hstep
      exact ⟨hok, h.registered, h.unregistered, h.idle, h.passed⟩
  | start notified =>
      have hidle : s.job = none := by
        rw [← Option.not_isSome_iff_eq_none]
        intro hbusy
        simp [step, hbusy] at hstep
      obtain ⟨job, rfl, hcases⟩ := step_start hstep
      refine ⟨h.row_only, h.registered, h.unregistered, by simp, ?_⟩
      intro job₁ hjob₁
      obtain rfl := Option.some.inj hjob₁
      rcases hcases with ⟨-, hforced⟩ | ⟨rfl, -⟩
      · exact absurd (hforced.symm.trans hok) (by simp)
      · exact ⟨h.idle hidle, h.idle hidle, by simp⟩
  | page =>
      obtain ⟨job, job', hjob, hpage, rfl⟩ := step_page hstep
      refine ⟨h.row_only, h.registered, h.unregistered, by simp, ?_⟩
      intro job₁ hjob₁
      obtain rfl := Option.some.inj hjob₁
      refine passesOver_readPage h.row_only (h.passed job hjob) ?_ hpage
      simpa only [Quiet, hjob, Option.bind_some] using hok
  | fail =>
      rw [step, Option.some.injEq] at hstep
      subst hstep
      refine ⟨h.row_only, h.registered, h.unregistered, fun _ => ?_, by simp⟩
      cases hjob : s.job with
      | none => exact h.idle hjob
      | some job =>
          obtain ⟨cursor, pools, rfl⟩ := hok job hjob
          exact (h.passed _ hjob).1
  | finish gap backend =>
      obtain ⟨forced, cursor, pools, hjob, hmerge⟩ := step_finish hstep
      obtain ⟨-, hbehind, hpools⟩ := h.passed _ hjob
      have hothers : pool ∉ pools ++ if forced = true then [] else gap := by
        intro hmem
        rcases List.mem_append.mp hmem with hread | hgap
        · exact hpools hread
        · cases forced with
          | true => exact absurd hgap (by simp)
          | false => exact hok (by simpa using hgap)
      have hmerged := mergedRun_of_merge h.registered hmerge
      refine ⟨?_, hmerged.registered, ?_, ?_, ?_⟩
      · rw [hmerged.table]
        exact h.row_only
      · intro hunfilled
        exact hmerged.lookup_ne hunfilled (h.unregistered hunfilled) hothers
      · rw [hmerged.cursor]
        exact fun _ => hbehind
      · simp [hmerged.job]
  | prune invalid =>
      rw [step, Option.some.injEq] at hstep
      subst hstep
      refine ⟨h.row_only, h.registered.prune invalid, ?_, ?_, ?_⟩
      · intro hunfilled hlookup
        have hfilter := (h.registered.lookup_prune invalid pool.poolKey).symm.trans hlookup
        exact h.unregistered hunfilled (Option.filter_eq_some_iff.mp hfilter).1
      · intro hjob
        show ¬Pending (s.registry.pruneDeadPools invalid).discoveryCursor row
        rw [cursor_prune]
        exact h.idle hjob
      · intro job hjob
        have hpassed := h.passed job hjob
        cases job <;> simpa only [PassesOver, cursor_prune] using hpassed

lemma missed_play (h : s.Missed rd row pool) (hok : Transition.Allowed (step rd) (Quiet rd row pool) s as)
    (hplay : play (step rd) s as = some s') : s'.Missed rd row pool := by
  induction as generalizing s with
  | nil =>
      rw [play, Option.some.injEq] at hplay
      exact hplay ▸ h
  | cons a as ih =>
      obtain ⟨s₁, hstep, hrest⟩ := Option.bind_eq_some_iff.mp hplay
      exact ih (missed_step h hok.1 hstep) (hok.2 s₁ hstep) hrest

lemma registered_of_reachable {ok : DiscoveryRun → DiscoveryStep → Prop}
    (h : Reachable (step rd) ok Initial s) : s.registry.Registered := by
  refine h.inv (fun s => s.registry.Registered) ?_ ?_
  · intro s hinitial
    rw [hinitial.registry]
    exact registered_init
  · intro s a s' hregistered _ hstep
    exact (step_registry 0 hregistered hstep).1

/-- A row that is written while a bootstrap reads on, behind its keyset and at a block below the one the bootstrap ends
with, is missed for good: until the row is written again or another bootstrap is forced, no pass has the row's new pool
among what it reads, and the pool is not registered, unless the backend completes an older Balancer pool to it. -/
theorem bootstrap_misses_update {ok : DiscoveryRun → DiscoveryStep → Prop} {keyset : PoolMetaKeyset}
    {pools : List PoolRecord} {table : List PoolMetaRow} {head : ℕ} {t : DiscoveryRun}
    (h : Reachable (step rd) ok Initial s) (hjob : s.job = some (.bootstrap keyset pools))
    (hindex : step rd s (.index table head) = some s') (hbehind : row.created ≤ keyset.mark)
    (honly : ∀ other ∈ table, rd.poolOf other = some pool → other = row)
    (hunread : pool ∉ pools) (hother : s.registry.lookup pool.poolKey ≠ some pool)
    (hok : Transition.Allowed (step rd) (Quiet rd row pool) s' as) (hplay : play (step rd) s' as = some t) :
    (∀ job, t.job = some job → pool ∉ jobPools job) ∧
      (Unfilled pool → t.registry.lookup pool.poolKey ≠ some pool) := by
  have hregistered := registered_of_reachable h
  have hwritten : s'.Missed rd row pool := by
    rw [step, Option.some.injEq] at hindex
    subst hindex
    refine ⟨honly, hregistered, fun _ => hother, ?_, ?_⟩
    · intro hidle
      exact absurd (hjob.symm.trans hidle) (by simp)
    · intro job hsame
      obtain rfl := Option.some.inj (hjob.symm.trans hsame)
      exact ⟨hbehind, hunread⟩
  have hmissed := missed_play hwritten hok hplay
  refine ⟨?_, hmissed.unregistered⟩
  intro job hrunning
  have hpassed := hmissed.passed job hrunning
  cases job with
  | bootstrap keyset pools => exact hpassed.2
  | incremental cursor pools => exact hpassed.2.2
  | fetched forced cursor pools => exact hpassed.2.2

/-- The row after its fee has changed, and a row that is created a block later. -/
def changedRow : PoolMetaRow := { oneRow with updatedAtBlock := some 11, columns := { v4Row with fee := some 3000 } }

def laterRow : PoolMetaRow :=
  ⟨"0x00000000000000000000000000000000000000000000000000000000000000bb", 12, none, v4Row⟩

/-- The block of the cursor, where the next page ends a bootstrap. -/
def endBlock (s : DiscoveryRun) : Option ℕ :=
  (s.job.bind (readPage oneReader s.table)).bind fun
    | .fetched true cursor _ => some cursor.lastUpdatedBlock
    | _ => none

/-- No write, no failure and no gap, and a bootstrap ends above the update of the row. -/
def quietly (s : DiscoveryRun) : DiscoveryStep → Bool
  | .start notified => !forcesBootstrap s.registry notified
  | .page => (endBlock s).all fun block => 11 < block
  | .finish gap _ => gap.isEmpty
  | _ => false

def playsQuietly : DiscoveryRun → List DiscoveryStep → Bool
  | _, [] => true
  | s, a :: as => quietly s a && (step oneReader s a).all fun s' => playsQuietly s' as

lemma quiet_of_quietly {a : DiscoveryStep} (h : quietly s a = true) : s.Quiet oneReader changedRow pool a := by
  cases a with
  | index table head => exact absurd h (by simp [quietly])
  | start notified => simpa [Quiet, quietly] using h
  | page =>
      intro cursor pools hends block hblock
      obtain rfl : 11 = block := Option.some.inj hblock
      have hend : endBlock s = some cursor.lastUpdatedBlock := by rw [endBlock, hends, Option.bind_some]
      rw [quietly, hend, Option.all_some] at h
      exact of_decide_eq_true h
  | fail => exact absurd h (by simp [quietly])
  | finish gap backend =>
      rw [quietly, List.isEmpty_iff] at h
      rw [h]
      exact List.not_mem_nil
  | prune invalid => trivial

lemma allowed_of_playsQuietly (h : playsQuietly s as = true) :
    Transition.Allowed (step oneReader) (Quiet oneReader changedRow pool) s as := by
  induction as generalizing s with
  | nil => trivial
  | cons a as ih =>
      rw [playsQuietly, Bool.and_eq_true] at h
      refine ⟨quiet_of_quietly h.1, fun s' hstep => ?_⟩
      have hrest := h.2
      rw [hstep, Option.all_some] at hrest
      exact ih hrest

/-- What a bootstrap has read: its keyset, and the fees of the pools. -/
def bootstrapAt (s : DiscoveryRun) : Option (ℕ × String × List ℕ) :=
  s.job.bind fun
    | .bootstrap keyset pools => some (keyset.createdBlock, keyset.id, pools.map fun pool => pool.feeBps)
    | _ => none

lemma job_of_bootstrapAt {block : ℕ} {id : String} {fees : List ℕ} (h : bootstrapAt s = some (block, id, fees)) :
    ∃ pools, s.job = some (.bootstrap ⟨block, id⟩ pools) ∧ pools.map (fun pool => pool.feeBps) = fees := by
  obtain ⟨job, hjob, h⟩ := Option.bind_eq_some_iff.mp h
  cases job with
  | bootstrap keyset pools =>
      simp only [Option.some.injEq, Prod.mk.injEq] at h
      obtain ⟨rfl, rfl, hfees⟩ := h
      exact ⟨pools, hjob, hfees⟩
  | incremental cursor pools => simp at h
  | fetched forced cursor pools => simp at h

lemma feeBps_of_poolOf {row : PoolMetaRow} {pool : PoolRecord} (fee : ℕ) (h : oneReader.poolOf row = some pool)
    (hfee : (oneReader.poolOf row).map (fun pool => pool.feeBps) = some fee) : pool.feeBps = fee := by
  rw [h] at hfee
  exact Option.some.inj hfee

/-- The rest of the bootstrap, and the pass after it. -/
def restOfBootstrap : List DiscoveryStep :=
  [.page, .page, .finish [] [], .start false, .page, .finish [] []]

/-- The bootstrap reads the row, the row changes, and the bootstrap reads the later row; the pass after it does not
see the change. -/
theorem bootstrap_misses_update_changedRow : ∃ (pool : PoolRecord) (s s' t : DiscoveryRun),
    oneReader.poolOf changedRow = some pool ∧ Unfilled pool ∧
    play (step oneReader) (unread [oneRow] 10) [.start false, .page] = some s ∧
    step oneReader s (.index [changedRow, laterRow] 12) = some s' ∧
    play (step oneReader) s' restOfBootstrap = some t ∧ t.registry.discoveryCursor.lastUpdatedBlock = 12 ∧
    (∀ job, t.job = some job → pool ∉ jobPools job) ∧
    (Unfilled pool → t.registry.lookup pool.poolKey ≠ some pool) := by
  have hpool : (oneReader.poolOf changedRow).map (fun pool => (pool.protocol, pool.feeBps)) =
      some (.uniswapV4, 30) := by decide +kernel
  obtain ⟨pool, hpool, hfacts⟩ := Option.map_eq_some_iff.mp hpool
  rw [Prod.mk.injEq] at hfacts
  have hplay : ((play (step oneReader) (unread [oneRow] 10) [.start false, .page]).bind fun s =>
      (step oneReader s (.index [changedRow, laterRow] 12)).bind fun s' =>
        (play (step oneReader) s' restOfBootstrap).map fun t =>
          (bootstrapAt s, s.registry.discovered.length, playsQuietly s' restOfBootstrap,
            t.registry.discoveryCursor.lastUpdatedBlock)) =
      some (some (7, oneRow.id, [5]), 0, true, 12) := by decide +kernel
  obtain ⟨s, hs, hplay⟩ := Option.bind_eq_some_iff.mp hplay
  obtain ⟨s', hindex, hplay⟩ := Option.bind_eq_some_iff.mp hplay
  obtain ⟨t, ht, hrun⟩ := Option.map_eq_some_iff.mp hplay
  simp only [Prod.mk.injEq] at hrun
  obtain ⟨hboot, hempty, hquiet, hcursor⟩ := hrun
  obtain ⟨pools, hjob, hfees⟩ := job_of_bootstrapAt hboot
  have hstart : Transition.Allowed (step oneReader) (fun _ _ => True) (unread [oneRow] 10) [.start false, .page] := by
    simp [Transition.Allowed]
  have hinitial : (unread [oneRow] 10).Initial := initial_unread
    ⟨⟨by simp, by simp [oneRow]⟩, by simp, ⟨by simp [oneRow], by simp [oneRow]⟩, by decide⟩
  have hreached := hstart.reachable (.init hinitial) hs
  have honly : ∀ other ∈ [changedRow, laterRow], oneReader.poolOf other = some pool → other = changedRow := by
    intro other hmem hother
    simp only [List.mem_cons, List.not_mem_nil, or_false] at hmem
    rcases hmem with rfl | rfl
    · rfl
    · have hlater := feeBps_of_poolOf 5 hother (by decide +kernel)
      omega
  have hunread : pool ∉ pools := by
    intro hmem
    have hfee := List.mem_map_of_mem (f := fun pool : PoolRecord => pool.feeBps) hmem
    rw [hfees, hfacts.2] at hfee
    simp at hfee
  have hunregistered : s.registry.lookup pool.poolKey ≠ some pool := by
    intro hlookup
    have hmem := ((registered_of_reachable hreached).lookup_eq_some.mp hlookup).1
    rw [List.length_eq_zero_iff.mp hempty] at hmem
    simp at hmem
  have hmissed := bootstrap_misses_update hreached hjob hindex (show changedRow.created ≤ _ from le_rfl) honly
    hunread hunregistered (allowed_of_playsQuietly hquiet) ht
  exact ⟨pool, s, s', t, hpool, by simp [Unfilled, hfacts.1], hs, hindex, ht, hcursor, hmissed⟩

end Missed

end DiscoveryRun

end PolygonArb

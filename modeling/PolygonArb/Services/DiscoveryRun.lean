import PolygonArb.Lib.Transition
import PolygonArb.Services.BalancerBackend
import PolygonArb.Services.PoolIndex

/-!
# Discovery passes over a moving index

`maybe_discover` of `services/state_refresh.rs` with `discover_bootstrap` and `discover_incremental`: a pass reads
pages of the index, one query after the other, and at its end merges what the Balancer backend leaves of it.  The
indexer goes on in the meantime, and `prune_dead_pools` takes pools out of the registry.  Every label of
`DiscoveryRun.step` is one query, one merge, one pruning or one write of the indexer, so a run is an interleaving of
them.

`discovery_loses_nothing` — in every run a valid row of the index either was last read under its key, and then
merged or refused by the backend, or is still ahead of the cursor, so that the next pass reads it; and a pass that is
not overtaken leaves the registry with the current pool of every valid row that was not refused or pruned.  A
bootstrap keeps one mark only, so this asks that the rows it has read stay as they are until it ends
(`DiscoveryRun.Allowed`).

`discovery_catches_up` — from every state between two passes, a pass that nothing disturbs ends: a full page always
brings it on, so it reads at most one page more than the index has rows and updates.
-/

namespace PolygonArb

open DiscoveryState Transition

/-- What a pass has read so far. -/
inductive DiscoveryJob
  | bootstrap (keyset : PoolMetaKeyset) (pools : List PoolRecord)
  | incremental (cursor : DiscoveryCursor) (pools : List PoolRecord)
  /-- All is read; the merge is next. -/
  | fetched (forced : Bool) (cursor : DiscoveryCursor) (pools : List PoolRecord)

inductive DiscoveryStep
  /-- The indexer writes. -/
  | index (table : List PoolMetaRow) (head : ℕ)
  /-- A pass begins, after a notification or in its turn. -/
  | start (notified : Bool)
  | page
  /-- A query has failed. -/
  | fail
  /-- The merge, with the pools of another archive that fill a gap and the answer of the Balancer backend. -/
  | finish (gap : List PoolRecord) (backend : List BackendPool)
  | prune (invalid : Finset Address)

/-- The index, the registry and the pass between them.  The other fields record, for every key, the pool that was
last read for a merge, whether the backend has refused it, the pool that was last merged, and whether that was
pruned since. -/
structure DiscoveryRun where
  table : List PoolMetaRow
  head : ℕ
  registry : DiscoveryState
  job : Option DiscoveryJob
  read : String → Option PoolRecord
  refused : String → Option PoolRecord
  merged : String → Option PoolRecord
  pruned : String → Bool

/-- `bootstrap_cursor_block`. -/
def bootstrapCursorBlock (keysetCreated poolCreatedMax : ℕ) : ℕ := max (max keysetCreated poolCreatedMax) 1

/-- The cursor after a bootstrap. -/
def bootstrapCursor (keyset : PoolMetaKeyset) (pools : List PoolRecord) : DiscoveryCursor :=
  let maxBlock := bootstrapCursorBlock keyset.createdBlock ((pools.map PoolRecord.createdBlock).foldr max 0)
  ⟨maxBlock, keyset.id, maxBlock, ""⟩

/-- One round of the loops of `discover_bootstrap` and `discover_incremental`. -/
def readPage (rd : IndexReader) (table : List PoolMetaRow) : DiscoveryJob → Option DiscoveryJob
  | .bootstrap keyset pools =>
      let (page, next, hasMore) := fetchPoolMetaPage rd table keyset (max rd.bootstrapBatch 1)
      some (if hasMore then .bootstrap next (pools ++ page)
        else .fetched true (bootstrapCursor next (pools ++ page)) (pools ++ page))
  | .incremental cursor pools =>
      (fetchPoolMetaIncremental rd table cursor).map fun (page, next, hasMore) =>
        if hasMore then .incremental next (pools ++ page) else .fetched false next (pools ++ page)
  | .fetched _ _ _ => none

namespace DiscoveryRun

/-- Whether a pass reads everything again. -/
def forcesBootstrap (registry : DiscoveryState) (notified : Bool) : Bool :=
  registry.discoveryCursor.lastBlock = 0 || notified && registry.discovered.isEmpty

/-- After the merge of what a pass has read, with the registry it has made. -/
def afterMerge (s : DiscoveryRun) (cursor : DiscoveryCursor) (pools : List PoolRecord) (backend : List BackendPool)
    (registry : DiscoveryState) : DiscoveryRun :=
  { s with
    registry := { registry with discoveryCursor := cursor }
    job := none
    read := overlay s.read pools
    refused := fun key => (lastOf pools key).elim (s.refused key) fun pool =>
      if refuses backend pool then some pool else none
    merged := overlay s.merged (applyBackendPools backend pools)
    pruned := fun key => s.pruned key && (lastOf (applyBackendPools backend pools) key).isNone }

/-- The merge of what a pass has read. -/
def merge (s : DiscoveryRun) (cursor : DiscoveryCursor) (pools : List PoolRecord) (backend : List BackendPool) :
    Option DiscoveryRun :=
  (s.registry.mergePools (applyBackendPools backend pools)).map fun merged =>
    s.afterMerge cursor pools backend merged.1

def step (rd : IndexReader) (s : DiscoveryRun) : DiscoveryStep → Option DiscoveryRun
  | .index table head => some { s with table := table, head := head }
  | .start notified =>
      if s.job.isSome then none
      else if forcesBootstrap s.registry notified then some { s with job := some (.bootstrap ⟨0, ""⟩ []) }
      else some { s with job := some (.incremental s.registry.discoveryCursor []) }
  | .page => (s.job.bind (readPage rd s.table)).map fun job => { s with job := some job }
  | .fail => some { s with job := none }
  | .finish gap backend =>
      match s.job with
      | some (.fetched forced cursor pools) => s.merge cursor (pools ++ if forced then [] else gap) backend
      | _ => none
  | .prune invalid =>
      let registry := s.registry.pruneDeadPools invalid
      some { s with
        registry := registry
        pruned := fun key => s.pruned key || (s.registry.lookup key).isSome && (registry.lookup key).isNone }

end DiscoveryRun

/-! ## The index -/

/-- What the indexer promises of a table. -/
structure IndexOk (head : ℕ) (table : List PoolMetaRow) : Prop where
  ids : DistinctIds table
  keys : ∀ row ∈ table, ∀ row' ∈ table, ∀ key, poolKeyOfId row.id = some key →
    poolKeyOfId row'.id = some key → row = row'
  blocks : AtMost head table
  started : 1 ≤ head

/-- A row that is new or has changed says so in a block above the old head. -/
def Advances (head : ℕ) (table table' : List PoolMetaRow) : Prop :=
  ∀ row ∈ table', row ∈ table ∨ head < row.createdBlock ∨ ∃ block, row.updatedAtBlock = some block ∧ head < block

namespace DiscoveryRun

/-- What a run asks of its surroundings.  The rows that a bootstrap has read do not change before it ends, and a
gap is filled with other pools than the index has. -/
def Allowed (rd : IndexReader) (s : DiscoveryRun) : DiscoveryStep → Prop
  | .index table head => s.head ≤ head ∧ IndexOk head table ∧ Advances s.head s.table table ∧
      ∀ keyset pools, s.job = some (.bootstrap keyset pools) →
        ∀ row ∈ table, row.created ≤ keyset.mark → row ∈ s.table
  | .finish gap _ => ∀ other ∈ gap, ∀ row ∈ s.table, ∀ pool, rd.poolOf row = some pool → other.poolKey ≠ pool.poolKey
  | _ => True

/-- At the start nothing is registered. -/
structure Initial (s : DiscoveryRun) : Prop where
  indexed : IndexOk s.head s.table
  registry : s.registry = .init
  job : s.job = none
  read : s.read = fun _ => none
  merged : s.merged = fun _ => none
  pruned : s.pruned = fun _ => false
  refused : s.refused = fun _ => none

section Steps

variable {rd : IndexReader} {s s' : DiscoveryRun}

/-- A pass begins with nothing read. -/
lemma step_start {notified : Bool} (hstep : step rd s (.start notified) = some s') :
    ∃ job, s' = { s with job := some job } ∧ (job = .bootstrap ⟨0, ""⟩ [] ∧
        forcesBootstrap s.registry notified = true ∨
      job = .incremental s.registry.discoveryCursor [] ∧ forcesBootstrap s.registry notified = false) := by
  simp only [step] at hstep
  split_ifs at hstep with hbusy hforced
  · exact ⟨_, (Option.some.inj hstep).symm, .inl ⟨rfl, hforced⟩⟩
  · exact ⟨_, (Option.some.inj hstep).symm, .inr ⟨rfl, by simpa using hforced⟩⟩

/-- A page is read by the pass that runs. -/
lemma step_page (hstep : step rd s .page = some s') :
    ∃ job job', s.job = some job ∧ readPage rd s.table job = some job' ∧ s' = { s with job := some job' } := by
  obtain ⟨job', hpage, rfl⟩ := Option.map_eq_some_iff.mp hstep
  obtain ⟨job, hjob, hpage⟩ := Option.bind_eq_some_iff.mp hpage
  exact ⟨job, job', hjob, hpage, rfl⟩

/-- Only what is read to the end is merged. -/
lemma step_finish {gap : List PoolRecord} {backend : List BackendPool}
    (hstep : step rd s (.finish gap backend) = some s') :
    ∃ forced cursor pools, s.job = some (.fetched forced cursor pools) ∧
      s.merge cursor (pools ++ if forced then [] else gap) backend = some s' := by
  simp only [step] at hstep
  split at hstep
  · exact ⟨_, _, _, ‹_›, hstep⟩
  · exact absurd hstep (by simp)

/-- What a merge makes of a run. -/
structure MergedRun (s : DiscoveryRun) (cursor : DiscoveryCursor) (pools : List PoolRecord)
    (backend : List BackendPool) (s' : DiscoveryRun) : Prop where
  registered : s'.registry.Registered
  lookup : ∀ key, s'.registry.lookup key = overlay s.registry.lookup (applyBackendPools backend pools) key
  cursor : s'.registry.discoveryCursor = cursor
  counts : s'.registry.invalidFetchCount = s.registry.invalidFetchCount
  read : s'.read = overlay s.read pools
  refused : s'.refused = fun key => (lastOf pools key).elim (s.refused key) fun pool =>
    if refuses backend pool then some pool else none
  merged : s'.merged = overlay s.merged (applyBackendPools backend pools)
  pruned : s'.pruned = fun key => s.pruned key && (lastOf (applyBackendPools backend pools) key).isNone
  table : s'.table = s.table
  head : s'.head = s.head
  job : s'.job = none

/-- A merge never fails. -/
lemma merge_spec (h : s.registry.Registered) (cursor : DiscoveryCursor) (pools : List PoolRecord)
    (backend : List BackendPool) :
    ∃ s', s.merge cursor pools backend = some s' ∧ s.MergedRun cursor pools backend s' := by
  obtain ⟨registry, replaced, hmerge, hregistered, hlookup, -, hcounts⟩ :=
    mergePools_spec h (applyBackendPools backend pools)
  refine ⟨s.afterMerge cursor pools backend registry, by rw [merge, hmerge, Option.map_some],
    ⟨hregistered.keys, hregistered.addresses⟩, hlookup, rfl, hcounts, rfl, rfl, rfl, rfl, rfl, rfl, rfl⟩

lemma mergedRun_of_merge {cursor : DiscoveryCursor} {pools : List PoolRecord} {backend : List BackendPool}
    (h : s.registry.Registered) (hmerge : s.merge cursor pools backend = some s') :
    s.MergedRun cursor pools backend s' := by
  obtain ⟨s₁, hrun, hmerged⟩ := merge_spec h cursor pools backend
  rw [hmerge, Option.some.injEq] at hrun
  rw [hrun]
  exact hmerged

end Steps

section Known

variable {rd : IndexReader} {table table' : List PoolMetaRow} {row : PoolMetaRow} {pool : PoolRecord}
  {content : String → Option PoolRecord} {pools more : List PoolRecord} {cursor : DiscoveryCursor} {head head' : ℕ}

/-- The row's pool is what the content has under its key. -/
def Read (rd : IndexReader) (content : String → Option PoolRecord) (row : PoolMetaRow) : Prop :=
  ∀ pool, rd.poolOf row = some pool → content pool.poolKey = some pool

/-- No row is lost: it is read, or ahead of the cursor. -/
def Known (rd : IndexReader) (content : String → Option PoolRecord) (cursor : DiscoveryCursor)
    (table : List PoolMetaRow) : Prop :=
  ∀ row ∈ table, rd.valid row = true → Read rd content row ∨ Pending cursor row

lemma poolOf_eq_some (h : rd.poolOf row = some pool) :
    poolKeyOfId row.id = some pool.poolKey ∧ pool.createdBlock = row.createdBlock := by
  obtain ⟨parsed, hparsed, hretained⟩ := Option.bind_eq_some_iff.mp h
  rw [retainRoutablePool] at hretained
  split_ifs at hretained
  rw [Option.some.injEq] at hretained
  subst hretained
  exact poolKey_of_parse hparsed

lemma lastOf_eq_some {key : String} (h : lastOf pools key = some pool) : pool ∈ pools ∧ pool.poolKey = key := by
  refine ⟨List.mem_reverse.mp (List.mem_of_find?_eq_some h), ?_⟩
  simpa using List.find?_some h

lemma lastOf_eq_none {key : String} : lastOf pools key = none ↔ ∀ pool ∈ pools, pool.poolKey ≠ key := by
  simp [lastOf, List.find?_eq_none]

lemma overlay_nil (content : String → Option PoolRecord) : overlay content [] = content := by
  funext key
  simp [overlay, lastOf]

lemma overlay_append (content : String → Option PoolRecord) (pools more : List PoolRecord) :
    overlay content (pools ++ more) = overlay (overlay content pools) more := by
  funext key
  simp [overlay, lastOf, List.reverse_append, List.find?_append, Option.or_assoc]

/-- Merging pools of the table's rows keeps what is read. -/
lemma Read.overlay (hkeys : ∀ row ∈ table, ∀ row' ∈ table, ∀ key, poolKeyOfId row.id = some key →
      poolKeyOfId row'.id = some key → row = row') (hrow : row ∈ table)
    (hpools : ∀ pool ∈ pools, ∃ row ∈ table, rd.poolOf row = some pool)
    (h : Read rd content row ∨ ∀ pool, rd.poolOf row = some pool → pool ∈ pools) :
    Read rd (overlay content pools) row := by
  intro pool hpool
  rw [DiscoveryState.overlay]
  cases hlast : lastOf pools pool.poolKey with
  | some last =>
      obtain ⟨hmem, hkey⟩ := lastOf_eq_some hlast
      obtain ⟨row', hrow', hpool'⟩ := hpools last hmem
      have hsame : row' = row := by
        refine hkeys row' hrow' row hrow pool.poolKey ?_ (poolOf_eq_some hpool).1
        rw [(poolOf_eq_some hpool').1, hkey]
      rw [hsame, hpool] at hpool'
      rw [Option.some_or, hpool']
  | none =>
      rw [Option.none_or]
      rcases h with hread | hmem
      · exact hread pool hpool
      · exact absurd rfl (lastOf_eq_none.mp hlast pool (hmem pool hpool))

/-- Merging pools of other keys keeps what is read. -/
lemma Read.other (h : Read rd content row)
    (hother : ∀ other ∈ pools, ∀ pool, rd.poolOf row = some pool → other.poolKey ≠ pool.poolKey) :
    Read rd (DiscoveryState.overlay content pools) row := by
  intro pool hpool
  rw [DiscoveryState.overlay, lastOf_eq_none.mpr fun other hmem => hother other hmem pool hpool, Option.none_or]
  exact h pool hpool

/-- What the indexer writes is ahead of every cursor below the head. -/
lemma Known.advance (h : Known rd content cursor table) (hcursor : cursor.Settled head)
    (hadvances : Advances head table table') : Known rd content cursor table' := by
  intro row hrow hvalid
  have hbelow := hcursor.ordered.trans hcursor.head
  rcases hadvances row hrow with hold | hcreated | ⟨block, hblock, hlt⟩
  · exact h row hold hvalid
  · exact .inr (.inl (mark_lt.mpr (.inl (hbelow.trans_lt hcreated))))
  · exact .inr (.inr ⟨block, hblock, mark_lt.mpr (.inl (hcursor.head.trans_lt hlt))⟩)

end Known

/-! ## What every run keeps -/

/-- What holds of a pass. -/
def JobOk (rd : IndexReader) (s : DiscoveryRun) : DiscoveryJob → Prop
  | .bootstrap keyset pools => keyset.createdBlock ≤ s.head ∧ (∀ pool ∈ pools, pool.createdBlock ≤ s.head) ∧
      ∀ row ∈ s.table, rd.valid row = true → row.created ≤ keyset.mark → Read rd (overlay s.read pools) row
  | .incremental cursor pools => cursor.Settled s.head ∧ Known rd (overlay s.read pools) cursor s.table
  | .fetched _ cursor pools => cursor.Settled s.head ∧ Known rd (overlay s.read pools) cursor s.table

/-- The pool was refused by the backend, or it was merged, with the id that the backend gives it. -/
def Taken (s : DiscoveryRun) (pool : PoolRecord) : Prop :=
  s.refused pool.poolKey = some pool ∨
    s.refused pool.poolKey = none ∧ ∃ backend, s.merged pool.poolKey = some (enrich backend pool)

structure Inv (rd : IndexReader) (s : DiscoveryRun) : Prop where
  indexed : IndexOk s.head s.table
  registered : s.registry.Registered
  content : ∀ key, s.registry.lookup key = if s.pruned key then none else s.merged key
  taken : ∀ pool, s.read pool.poolKey = some pool → s.Taken pool
  balancer : ∀ key pool, s.refused key = some pool → pool.protocol = .balancerV2
  settled : s.registry.discoveryCursor.lastBlock ≠ 0 → s.registry.discoveryCursor.Settled s.head ∧
    Known rd s.read s.registry.discoveryCursor s.table
  job : ∀ job, s.job = some job → JobOk rd s job

variable {rd : IndexReader} {s s' : DiscoveryRun}

section Page

variable {keyset next : PoolMetaKeyset} {cursor next' : DiscoveryCursor} {pools page : List PoolRecord}
  {job job' : DiscoveryJob} {more : Bool}

/-- A page of the keyset query. -/
lemma page_bootstrap (h : IndexOk s.head s.table) (hjob : s.JobOk rd (.bootstrap keyset pools))
    (hpage : fetchPoolMetaPage rd s.table keyset (max rd.bootstrapBatch 1) = (page, next, more)) :
    s.JobOk rd (.bootstrap next (pools ++ page)) ∧
      (more = false → ∀ row ∈ s.table, rd.valid row = true → Read rd (overlay s.read (pools ++ page)) row) := by
  obtain ⟨hkeyset, hpools, hread⟩ := hjob
  have hcovers := @page_covers rd s.table
  rw [fetchPoolMetaPage, Prod.mk.injEq, Prod.mk.injEq] at hpage
  obtain ⟨rfl, rfl, rfl⟩ := hpage
  set limit := max rd.bootstrapBatch 1 with hlimit
  set rows := keysetRows rd s.table keyset limit with hrows
  have hmem : ∀ row ∈ rows, row ∈ s.table := fun row hrow => (mem_of_keysetRows hrow).1
  have hfound : ∀ pool ∈ rows.filterMap rd.poolOf, ∃ row ∈ s.table, rd.poolOf row = some pool := by
    intro pool hpool
    obtain ⟨row, hrow, hpool⟩ := List.mem_filterMap.mp hpool
    exact ⟨row, hmem row hrow, hpool⟩
  have hbelow : ∀ row ∈ s.table, rd.valid row = true →
      (row.created ≤ keyset.mark ∨ row ∈ rows) → Read rd (overlay s.read (pools ++ rows.filterMap rd.poolOf)) row := by
    intro row hrow hvalid hcases
    rw [overlay_append]
    refine Read.overlay h.keys hrow hfound ?_
    rcases hcases with hold | hnew
    · exact .inl (hread row hrow hvalid hold)
    · exact .inr fun pool hpool => List.mem_filterMap.mpr ⟨row, hnew, hpool⟩
  refine ⟨⟨?_, ?_, ?_⟩, ?_⟩
  · cases hlast : rows.getLast? with
    | none => exact hkeyset
    | some last => exact h.blocks.created last (hmem last (List.mem_of_getLast? hlast))
  · intro pool hpool
    rcases List.mem_append.mp hpool with hold | hnew
    · exact hpools pool hold
    · obtain ⟨row, hrow, hpool⟩ := hfound pool hnew
      rw [(poolOf_eq_some hpool).2]
      exact h.blocks.created row hrow
  · intro row hrow hvalid hnext
    refine hbelow row hrow hvalid ?_
    rcases le_or_gt row.created keyset.mark with hold | hafter
    · exact .inl hold
    · rcases hcovers h.ids hrow hvalid hafter with hpage | ⟨-, hlater⟩
      · exact .inr hpage
      · exact absurd hnext (not_le.mpr hlater)
  · intro hnone row hrow hvalid
    refine hbelow row hrow hvalid ?_
    rcases le_or_gt row.created keyset.mark with hold | hafter
    · exact .inl hold
    · rcases hcovers h.ids hrow hvalid hafter with hpage | ⟨hmore, -⟩
      · exact .inr hpage
      · exact absurd (hmore.symm.trans hnone) (by simp)

lemma createdBlock_le_foldr {head : ℕ} (h : ∀ pool ∈ pools, pool.createdBlock ≤ head) :
    (pools.map PoolRecord.createdBlock).foldr max 0 ≤ head := by
  induction pools with
  | nil => exact Nat.zero_le head
  | cons pool rest ih =>
      rw [List.forall_mem_cons] at h
      exact max_le h.1 (ih h.2)

/-- The cursor a bootstrap ends with. -/
lemma settled_bootstrapCursor {head : ℕ} (hhead : 1 ≤ head) (hkeyset : keyset.createdBlock ≤ head)
    (hpools : ∀ pool ∈ pools, pool.createdBlock ≤ head) : (bootstrapCursor keyset pools).Settled head := by
  have hmax := createdBlock_le_foldr hpools
  refine ⟨?_, le_rfl, max_le (max_le hkeyset hmax) hhead⟩
  have hone : 1 ≤ (bootstrapCursor keyset pools).lastBlock := le_max_right _ _
  omega

/-- A page of the incremental query. -/
lemma page_incremental (h : IndexOk s.head s.table) (hjob : s.JobOk rd (.incremental cursor pools))
    (hpage : fetchPoolMetaIncremental rd s.table cursor = some (page, next', more)) :
    s.JobOk rd (.incremental next' (pools ++ page)) ∧
      (more = false → ∀ row ∈ s.table, rd.valid row = true → Read rd (overlay s.read (pools ++ page)) row) := by
  obtain ⟨hsettled, hknown⟩ := hjob
  rw [fetchPoolMetaIncremental] at hpage
  split_ifs at hpage
  simp only [Option.some.injEq, Prod.mk.injEq] at hpage
  obtain ⟨rfl, rfl, rfl⟩ := hpage
  set rows := incrementalRows rd s.table cursor with hrows
  have hfound : ∀ pool ∈ rows.filterMap fun e => rd.poolOf e.row, ∃ row ∈ s.table, rd.poolOf row = some pool := by
    intro pool hpool
    obtain ⟨e, he, hpool⟩ := List.mem_filterMap.mp hpool
    exact ⟨e.row, (asked_of_page he).row_mem.1, hpool⟩
  have hreads : ∀ row ∈ s.table, rd.valid row = true →
      Read rd (overlay s.read (pools ++ rows.filterMap fun e => rd.poolOf e.row)) row ∨
        rows.length = poolMetaIncrementalLimit ∧ Pending (cursor.advanceAll rows) row := by
    intro row hrow hvalid
    rw [overlay_append]
    rcases hknown row hrow hvalid with hread | hpending
    · exact .inl (Read.overlay h.keys hrow hfound (.inl hread))
    · rcases incremental_covers h.ids hsettled hrow hvalid hpending with ⟨e, he, rfl⟩ | hahead
      · exact .inl (Read.overlay h.keys hrow hfound
          (.inr fun pool hpool => List.mem_filterMap.mpr ⟨e, he, hpool⟩))
      · exact .inr hahead
  refine ⟨⟨hsettled.advanceAll h.blocks fun e he => asked_of_page he, ?_⟩, ?_⟩
  · intro row hrow hvalid
    exact (hreads row hrow hvalid).imp_right And.right
  · intro hnone row hrow hvalid
    exact (hreads row hrow hvalid).resolve_right fun hfull => of_decide_eq_false hnone hfull.1

/-- What a page makes of a pass; the last one leaves no row unread. -/
lemma jobOk_readPage (h : IndexOk s.head s.table) (hjob : s.JobOk rd job)
    (hpage : readPage rd s.table job = some job') :
    s.JobOk rd job' ∧ ∀ forced cursor pools, job' = .fetched forced cursor pools →
      ∀ row ∈ s.table, rd.valid row = true → Read rd (overlay s.read pools) row := by
  cases job with
  | bootstrap keyset pools =>
      rcases hquery : fetchPoolMetaPage rd s.table keyset (max rd.bootstrapBatch 1) with ⟨page, next, more⟩
      obtain ⟨hnext, hall⟩ := page_bootstrap h hjob hquery
      simp only [readPage, hquery, Option.some.injEq] at hpage
      subst hpage
      cases more with
      | true => exact ⟨hnext, by simp⟩
      | false =>
          refine ⟨⟨settled_bootstrapCursor h.started hnext.1 hnext.2.1, ?_⟩, ?_⟩
          · intro row hrow hvalid
            exact .inl (hall rfl row hrow hvalid)
          · intro forced cursor found heq
            simp only [Bool.false_eq_true, if_false, DiscoveryJob.fetched.injEq] at heq
            rw [← heq.2.2]
            exact hall rfl
  | incremental cursor pools =>
      obtain ⟨⟨page, next, more⟩, hquery, heq⟩ := Option.map_eq_some_iff.mp hpage
      obtain ⟨hnext, hall⟩ := page_incremental h hjob hquery
      subst heq
      cases more with
      | true => exact ⟨hnext, by simp⟩
      | false =>
          refine ⟨hnext, ?_⟩
          intro forced cursor found heq
          simp only [Bool.false_eq_true, if_false, DiscoveryJob.fetched.injEq] at heq
          rw [← heq.2.2]
          exact hall rfl
  | fetched _ _ _ => exact absurd hpage (by simp [readPage])

end Page

section Merge

variable {cursor : DiscoveryCursor} {pools : List PoolRecord} {backend : List BackendPool}

/-- What is registered after a merge. -/
lemma MergedRun.content (h : s.MergedRun cursor pools backend s')
    (hcontent : ∀ key, s.registry.lookup key = if s.pruned key then none else s.merged key) (key : String) :
    s'.registry.lookup key = if s'.pruned key then none else s'.merged key := by
  rw [h.lookup, h.merged, h.pruned, overlay, overlay, hcontent key]
  cases hlast : lastOf (applyBackendPools backend pools) key with
  | none => simp [hlast]
  | some pool => simp [hlast]

/-- What is read for a merge is merged or refused by it. -/
lemma MergedRun.taken (h : s.MergedRun cursor pools backend s')
    (htaken : ∀ pool, s.read pool.poolKey = some pool → s.Taken pool) (pool : PoolRecord)
    (hread : s'.read pool.poolKey = some pool) : s'.Taken pool := by
  rw [h.read, overlay] at hread
  rw [Taken, h.refused, h.merged, overlay]
  cases hlast : lastOf pools pool.poolKey with
  | some last =>
      rw [hlast, Option.some_or, Option.some.injEq] at hread
      subst hread
      cases hrefused : refuses backend last with
      | true => exact .inl (by simp [hlast, hrefused])
      | false =>
          refine .inr ⟨by simp [hlast, hrefused], backend, ?_⟩
          rw [lastOf_applyBackendPools hlast hrefused, Option.some_or]
  | none =>
      rw [hlast, Option.none_or] at hread
      simp only [hlast, Option.elim_none, lastOf_applyBackendPools_none hlast, Option.none_or]
      exact htaken pool hread

/-- The backend refuses Balancer pools only. -/
lemma MergedRun.balancer (h : s.MergedRun cursor pools backend s')
    (hbalancer : ∀ key pool, s.refused key = some pool → pool.protocol = .balancerV2) (key : String)
    (pool : PoolRecord) (hrefused : s'.refused key = some pool) : pool.protocol = .balancerV2 := by
  rw [h.refused] at hrefused
  cases hlast : lastOf pools key with
  | none =>
      simp only [hlast, Option.elim_none] at hrefused
      exact hbalancer key pool hrefused
  | some last =>
      simp only [hlast, Option.elim_some] at hrefused
      split_ifs at hrefused with hlastRefused
      rw [← Option.some.inj hrefused]
      exact protocol_of_refuses hlastRefused

end Merge

lemma cursor_prune (registry : DiscoveryState) (invalid : Finset Address) :
    (registry.pruneDeadPools invalid).discoveryCursor = registry.discoveryCursor := by
  simp only [pruneDeadPools]
  split_ifs
  · rfl
  · rfl

lemma inv_index {table : List PoolMetaRow} {head : ℕ} (h : s.Inv rd)
    (hok : s.Allowed rd (.index table head)) : Inv rd { s with table := table, head := head } := by
  obtain ⟨hle, hindexed, hadvances, hbootstrap⟩ := hok
  refine ⟨hindexed, h.registered, h.content, h.taken, h.balancer, ?_, ?_⟩
  · intro hne
    obtain ⟨hsettled, hknown⟩ := h.settled hne
    exact ⟨hsettled.mono hle, hknown.advance hsettled hadvances⟩
  · intro job hjob
    have hok := h.job job hjob
    cases job with
    | bootstrap keyset pools =>
        refine ⟨hok.1.trans hle, fun pool hpool => (hok.2.1 pool hpool).trans hle, ?_⟩
        intro row hrow hvalid hbefore
        exact hok.2.2 row (hbootstrap keyset pools hjob row hrow hbefore) hvalid hbefore
    | incremental cursor pools => exact ⟨hok.1.mono hle, hok.2.advance hok.1 hadvances⟩
    | fetched forced cursor pools => exact ⟨hok.1.mono hle, hok.2.advance hok.1 hadvances⟩

lemma inv_start {notified : Bool} (h : s.Inv rd) (hstep : step rd s (.start notified) = some s') : s'.Inv rd := by
  obtain ⟨job, rfl, hcases⟩ := step_start hstep
  refine ⟨h.indexed, h.registered, h.content, h.taken, h.balancer, h.settled, ?_⟩
  intro job₁ hjob₁
  obtain rfl := Option.some.inj hjob₁
  rcases hcases with ⟨rfl, -⟩ | ⟨rfl, hforced⟩
  · refine ⟨Nat.zero_le _, by simp, ?_⟩
    intro row hrow hvalid hbefore
    -- every row comes after the first keyset
    have hafter : PoolMetaKeyset.mark ⟨0, ""⟩ < row.created := by
      refine mark_lt.mpr ?_
      rcases Nat.eq_zero_or_pos row.createdBlock with hzero | hpos
      · exact .inr ⟨hzero.symm, empty_lt (h.indexed.ids.nonempty row hrow)⟩
      · exact .inl hpos
    exact absurd hbefore (not_le.mpr hafter)
  · rw [forcesBootstrap, Bool.or_eq_false_iff, decide_eq_false_iff_not] at hforced
    rw [JobOk, overlay_nil]
    exact h.settled hforced.1

lemma inv_finish {gap : List PoolRecord} {backend : List BackendPool} (h : s.Inv rd)
    (hok : s.Allowed rd (.finish gap backend)) (hstep : step rd s (.finish gap backend) = some s') : s'.Inv rd := by
  obtain ⟨forced, cursor, pools, hjob, hmerge⟩ := step_finish hstep
  have hfetched := h.job _ hjob
  have hmerged := mergedRun_of_merge h.registered hmerge
  refine ⟨?_, hmerged.registered, hmerged.content h.content, hmerged.taken h.taken, hmerged.balancer h.balancer, ?_,
    ?_⟩
  · rw [hmerged.table, hmerged.head]
    exact h.indexed
  · intro _
    rw [hmerged.cursor, hmerged.head, hmerged.read, hmerged.table, overlay_append]
    refine ⟨hfetched.1, ?_⟩
    intro row hrow hvalid
    refine (hfetched.2 row hrow hvalid).imp_left fun hread => hread.other ?_
    intro other hother
    cases forced with
    | true => exact absurd hother (by simp)
    | false => exact hok other (by simpa using hother) row hrow
  · intro job hnone
    rw [hmerged.job] at hnone
    exact absurd hnone (by simp)

/-- What is registered after a pruning. -/
lemma inv_prune {invalid : Finset Address} (h : s.Inv rd) (hstep : step rd s (.prune invalid) = some s') :
    s'.Inv rd := by
  rw [step, Option.some.injEq] at hstep
  subst hstep
  refine ⟨h.indexed, h.registered.prune invalid, ?_, h.taken, h.balancer, ?_, h.job⟩
  · intro key
    have hafter := h.registered.lookup_prune invalid key
    have hcontent := h.content key
    show (s.registry.pruneDeadPools invalid).lookup key = if (s.pruned key || (s.registry.lookup key).isSome &&
      ((s.registry.pruneDeadPools invalid).lookup key).isNone) = true then none else s.merged key
    cases hlookup : s.registry.lookup key with
    | none =>
        rw [hlookup] at hafter hcontent
        rw [Option.filter_none] at hafter
        rw [hafter]
        simpa using hcontent
    | some pool =>
        rw [hlookup] at hafter hcontent
        have hkept : s.pruned key = false := by
          by_contra hpruned
          rw [if_pos (by simpa using hpruned)] at hcontent
          exact absurd hcontent (by simp)
        rw [if_neg (by simp [hkept])] at hcontent
        rw [hafter, ← hcontent, hkept]
        cases hfilter : (some pool).filter fun pool => pool.address ∉ (s.registry.countInvalid invalid).2 with
        | none => simp
        | some kept =>
            have hsame := (Option.filter_eq_some_iff.mp hfilter).1
            simp [hsame]
  · show (s.registry.pruneDeadPools invalid).discoveryCursor.lastBlock ≠ 0 →
      (s.registry.pruneDeadPools invalid).discoveryCursor.Settled s.head ∧
        Known rd s.read (s.registry.pruneDeadPools invalid).discoveryCursor s.table
    rw [cursor_prune]
    exact h.settled

lemma inv_step {a : DiscoveryStep} (h : s.Inv rd) (hok : s.Allowed rd a) (hstep : step rd s a = some s') :
    s'.Inv rd := by
  cases a with
  | index table head =>
      rw [step, Option.some.injEq] at hstep
      subst hstep
      exact inv_index h hok
  | start notified => exact inv_start h hstep
  | page =>
      obtain ⟨job, job', hjob, hpage, rfl⟩ := step_page hstep
      refine ⟨h.indexed, h.registered, h.content, h.taken, h.balancer, h.settled, ?_⟩
      intro job₁ hjob₁
      obtain rfl := Option.some.inj hjob₁
      have hnext := (jobOk_readPage h.indexed (h.job job hjob) hpage).1
      cases job' <;> exact hnext
  | fail =>
      rw [step, Option.some.injEq] at hstep
      subst hstep
      refine ⟨h.indexed, h.registered, h.content, h.taken, h.balancer, h.settled, ?_⟩
      intro job hjob
      exact absurd hjob (by simp)
  | finish gap backend => exact inv_finish h hok hstep
  | prune invalid => exact inv_prune h hstep

/-- The pool was refused by the backend, or it is registered, with the id that the backend gives it, unless it was
pruned. -/
def Current (s : DiscoveryRun) (pool : PoolRecord) : Prop :=
  s.refused pool.poolKey = some pool ∨ ∃ backend,
    s.registry.lookup pool.poolKey = if s.pruned pool.poolKey then none else some (enrich backend pool)

lemma Inv.current {pool : PoolRecord} (h : s.Inv rd) (hread : s.read pool.poolKey = some pool) : s.Current pool := by
  refine (h.taken pool hread).imp_right ?_
  rintro ⟨-, backend, hmerged⟩
  exact ⟨backend, by rw [h.content, hmerged]⟩

section Ends

variable {job job' : DiscoveryJob}

/-- How many rows, and updates of rows, a pass has not come to. -/
def remaining (table : List PoolMetaRow) : DiscoveryJob → ℕ
  | .bootstrap keyset _ => table.countP fun row => keyset.mark < row.created
  | .incremental cursor _ => (table.countP fun row => cursor.created < row.created) +
      table.countP fun row => row.updatedAtBlock.any fun block => cursor.updated < mark block row.id
  | .fetched _ _ _ => 0

end Ends

/-! ## An index of two rows -/

/-- A run over an index that is still to be read. -/
def unread (table : List PoolMetaRow) (head : ℕ) : DiscoveryRun where
  table := table
  head := head
  registry := .init
  job := none
  read := fun _ => none
  refused := fun _ => none
  merged := fun _ => none
  pruned := fun _ => false

lemma initial_unread {table : List PoolMetaRow} {head : ℕ} (h : IndexOk head table) : (unread table head).Initial :=
  ⟨h, rfl, rfl, rfl, rfl, rfl, rfl⟩

def oneRow : PoolMetaRow :=
  ⟨"0x00000000000000000000000000000000000000000000000000000000000000AA", 7, some 8, v4Row⟩

/-- Pages of one row. -/
def oneReader : IndexReader := ⟨fun _ => true, fun poolId => poolId.setWidth 160, ⟨true, true, true⟩, 1⟩

end DiscoveryRun

end PolygonArb

import Mathlib.Data.Prod.Lex
import Mathlib.Data.String.Basic
import PolygonArb.Lib.BoundedHeap
import PolygonArb.Services.DiscoveryRegistry

/-!
# Reading the pool index

The two queries of `infra/pg.rs` on `PoolMeta`, and what the page of a query does to the place it was read from.
The keyset query reads rows by their block of creation.  The incremental query also reads the rows that were
updated, and keeps a mark for each of the two.

No row is passed over: what a query asks for is on its page or still ahead of the next one (`page_covers`,
`incremental_covers`).  The second needs the mark of the updates to be at or above the mark of the creations, which
the code restores after every page (`DiscoveryCursor.settle`).
-/

namespace PolygonArb

open BoundedHeap

/-- A row of `PoolMeta`; its blocks are not below zero. -/
structure PoolMetaRow where
  id : String
  createdBlock : ℕ
  updatedAtBlock : Option ℕ
  columns : PoolMetaColumns
  deriving DecidableEq

/-- A block, and an id within it. -/
abbrev Mark := ℕ ×ₗ String

def mark (block : ℕ) (id : String) : Mark := toLex (block, id)

def PoolMetaRow.created (row : PoolMetaRow) : Mark := mark row.createdBlock row.id

/-- What reading the index depends on: the filter of the queries, and the settings. -/
structure IndexReader where
  valid : PoolMetaRow → Bool
  synthetic : BitVec 256 → Address
  env : V2Switches
  bootstrapBatch : ℕ

/-- The pool of a row, if it is parsed and routable. -/
def IndexReader.poolOf (rd : IndexReader) (row : PoolMetaRow) : Option PoolRecord :=
  (parsePoolMetaRow rd.synthetic row.id row.createdBlock row.columns).bind (retainRoutablePool rd.env)

structure PoolMetaKeyset where
  createdBlock : ℕ
  id : String

def PoolMetaKeyset.mark (keyset : PoolMetaKeyset) : Mark := PolygonArb.mark keyset.createdBlock keyset.id

namespace DiscoveryCursor

def created (cursor : DiscoveryCursor) : Mark := mark cursor.lastBlock cursor.lastBlockId

def updated (cursor : DiscoveryCursor) : Mark := mark cursor.lastUpdatedBlock cursor.lastUpdatedId

/-- `updated_wm`, with the id. -/
def updatedWatermark (cursor : DiscoveryCursor) : Mark :=
  mark (if cursor.lastUpdatedBlock = 0 then cursor.lastBlock else cursor.lastUpdatedBlock) cursor.lastUpdatedId

end DiscoveryCursor

/-! ## The queries -/

section Queries

variable (rd : IndexReader) (table : List PoolMetaRow)

/-- `POOL_META_KEYSET_SQL`. -/
def keysetRows (keyset : PoolMetaKeyset) (limit : ℕ) : List PoolMetaRow :=
  firstBy PoolMetaRow.created limit (table.filter fun row => keyset.mark < row.created && rd.valid row)

/-- `fetch_pool_meta_page`: the pools, the next keyset, and whether there may be more. -/
def fetchPoolMetaPage (after : PoolMetaKeyset) (limit : ℕ) : List PoolRecord × PoolMetaKeyset × Bool :=
  let rows := keysetRows rd table after limit
  (rows.filterMap rd.poolOf, rows.getLast?.elim after fun row => ⟨row.createdBlock, row.id⟩, rows.length = limit)

/-- A row of the incremental query. -/
structure IncrementalRow where
  row : PoolMetaRow
  updatedAtBlock : Option ℕ
  sortBlock : ℕ

def IncrementalRow.sortKey (e : IncrementalRow) : Mark := mark e.sortBlock e.row.id

/-- `POOL_META_INCREMENTAL_LIMIT`. -/
def poolMetaIncrementalLimit : ℕ := 10000

/-- The rows that were created after the cursor. -/
def createdArm (cursor : DiscoveryCursor) : List IncrementalRow :=
  (table.filter fun row => cursor.created < row.created && rd.valid row).map fun row => ⟨row, none, row.createdBlock⟩

/-- The rows that were updated after the cursor. -/
def updatedArm (cursor : DiscoveryCursor) : List IncrementalRow :=
  table.filterMap fun row => row.updatedAtBlock.bind fun block =>
    if cursor.updatedWatermark < mark block row.id ∧ row.createdBlock ≤ cursor.lastBlock ∧ rd.valid row = true then
      some ⟨row, some block, block⟩
    else none

/-- `POOL_META_INCREMENTAL_SQL`. -/
def incrementalRows (cursor : DiscoveryCursor) : List IncrementalRow :=
  firstBy IncrementalRow.sortKey poolMetaIncrementalLimit (createdArm rd table cursor ++ updatedArm rd table cursor)

/-- `advance_cursor_pair` for one row: the mark that the row belongs to. -/
def DiscoveryCursor.advance (cursor : DiscoveryCursor) (e : IncrementalRow) : DiscoveryCursor :=
  match e.updatedAtBlock with
  | some block =>
      if cursor.updated < mark block e.row.id then { cursor with lastUpdatedBlock := block, lastUpdatedId := e.row.id }
      else cursor
  | none =>
      if cursor.created < e.row.created then
        { cursor with lastBlock := e.row.createdBlock, lastBlockId := e.row.id }
      else cursor

/-- The mark of the updates is brought up to the block of the other. -/
def DiscoveryCursor.settle (cursor : DiscoveryCursor) : DiscoveryCursor :=
  if cursor.lastUpdatedBlock < cursor.lastBlock then
    { cursor with lastUpdatedBlock := cursor.lastBlock, lastUpdatedId := "" }
  else cursor

/-- The cursor of `parse_incremental_rows`. -/
def DiscoveryCursor.advanceAll (cursor : DiscoveryCursor) (rows : List IncrementalRow) : DiscoveryCursor :=
  (rows.foldl advance cursor).settle

/-- `fetch_pool_meta_incremental`; it fails before the bootstrap and on blocks that are no `i32`. -/
def fetchPoolMetaIncremental (cursor : DiscoveryCursor) : Option (List PoolRecord × DiscoveryCursor × Bool) :=
  if cursor.lastBlock = 0 then none
  else if 2 ^ 31 ≤ cursor.lastBlock ∨ 2 ^ 31 ≤ (ofLex cursor.updatedWatermark).1 then none
  else
    let rows := incrementalRows rd table cursor
    some (rows.filterMap fun e => rd.poolOf e.row, cursor.advanceAll rows, rows.length = poolMetaIncrementalLimit)

end Queries

/-! ## No row is passed over -/

/-- Ids do not repeat in the table, and none is empty. -/
structure DistinctIds (table : List PoolMetaRow) : Prop where
  eq_of_id : ∀ row ∈ table, ∀ row' ∈ table, row.id = row'.id → row = row'
  nonempty : ∀ row ∈ table, row.id ≠ ""

lemma mark_lt {block block' : ℕ} {id id' : String} :
    mark block id < mark block' id' ↔ block < block' ∨ block = block' ∧ id < id' :=
  Prod.Lex.toLex_lt_toLex

lemma mark_inj {block block' : ℕ} {id id' : String} : mark block id = mark block' id' ↔ block = block' ∧ id = id' := by
  rw [mark, mark, toLex_inj, Prod.mk.injEq]

lemma block_le_of_mark_le {block block' : ℕ} {id id' : String} (h : mark block id ≤ mark block' id') :
    block ≤ block' := by
  rcases h.lt_or_eq with hlt | heq
  · rcases mark_lt.mp hlt with hblock | ⟨hblock, -⟩
    · exact hblock.le
    · exact hblock.le
  · exact (mark_inj.mp heq).1.le

lemma empty_lt {id : String} (h : id ≠ "") : "" < id := by
  rw [String.lt_iff_toList_lt]
  cases hid : id.toList with
  | nil => exact absurd (String.toList_eq_nil_iff.mp hid) h
  | cons c rest => exact List.nil_lt_cons c rest

section Keyset

variable {rd : IndexReader} {table : List PoolMetaRow} {row : PoolMetaRow} {after : PoolMetaKeyset} {limit : ℕ}

/-- What is on a page. -/
lemma mem_of_keysetRows (h : row ∈ keysetRows rd table after limit) :
    row ∈ table ∧ after.mark < row.created ∧ rd.valid row = true := by
  have hmem := (kept_firstBy limit _).subset h
  simpa [and_assoc] using hmem

lemma next_keyset_eq (after : PoolMetaKeyset) (rows : List PoolMetaRow) :
    (rows.getLast?.elim after fun row => ⟨row.createdBlock, row.id⟩).mark = after.mark ∨
      ∃ last ∈ rows, (rows.getLast?.elim after fun row => ⟨row.createdBlock, row.id⟩).mark = last.created := by
  cases hlast : rows.getLast? with
  | none => exact .inl rfl
  | some last => exact .inr ⟨last, List.mem_of_getLast? hlast, rfl⟩

/-- A row that the query asks for is on the page, or the page is full and the row comes after it. -/
lemma page_covers (hids : DistinctIds table) (hrow : row ∈ table) (hvalid : rd.valid row = true)
    (hafter : after.mark < row.created) :
    row ∈ keysetRows rd table after limit ∨
      (fetchPoolMetaPage rd table after limit).2.2 = true ∧
        (fetchPoolMetaPage rd table after limit).2.1.mark < row.created := by
  have hkept : Kept PoolMetaRow.created limit (table.filter fun row => after.mark < row.created && rd.valid row)
      (keysetRows rd table after limit) := kept_firstBy limit _
  have hasked : row ∈ table.filter fun row => after.mark < row.created && rd.valid row := by
    simp [hrow, hvalid, hafter]
  rcases hkept.mem_or_le hasked with hpage | ⟨hfull, hle⟩
  · exact .inl hpage
  by_cases hpage : row ∈ keysetRows rd table after limit
  · exact .inl hpage
  refine .inr ⟨decide_eq_true hfull, ?_⟩
  simp only [fetchPoolMetaPage]
  rcases next_keyset_eq after (keysetRows rd table after limit) with hnext | ⟨last, hlast, hnext⟩
  · rw [hnext]
    exact hafter
  · rw [hnext]
    refine lt_of_le_of_ne (hle last hlast) ?_
    intro heq
    have hsame := hids.eq_of_id last (mem_of_keysetRows hlast).1 row hrow (mark_inj.mp heq).2
    exact hpage (hsame ▸ hlast)

end Keyset

/-- The row is still ahead of the cursor. -/
def Pending (cursor : DiscoveryCursor) (row : PoolMetaRow) : Prop :=
  cursor.created < row.created ∨ ∃ block, row.updatedAtBlock = some block ∧ cursor.updated < mark block row.id

section Incremental

variable {rd : IndexReader} {table : List PoolMetaRow} {row : PoolMetaRow} {cursor : DiscoveryCursor}
  {e : IncrementalRow} {rows : List IncrementalRow}

/-- What the two parts of the query return. -/
inductive Asked (rd : IndexReader) (table : List PoolMetaRow) : IncrementalRow → Prop
  | created {row : PoolMetaRow} (hrow : row ∈ table) (hvalid : rd.valid row = true) :
      Asked rd table ⟨row, none, row.createdBlock⟩
  | updated {row : PoolMetaRow} {block : ℕ} (hrow : row ∈ table) (hvalid : rd.valid row = true)
      (hblock : row.updatedAtBlock = some block) : Asked rd table ⟨row, some block, block⟩

lemma Asked.row_mem (h : Asked rd table e) : e.row ∈ table ∧ rd.valid e.row = true := by
  cases h with
  | created hrow hvalid => exact ⟨hrow, hvalid⟩
  | updated hrow hvalid _ => exact ⟨hrow, hvalid⟩

lemma Asked.sortKey_of_none (h : Asked rd table e) (hnone : e.updatedAtBlock = none) : e.sortKey = e.row.created := by
  cases h with
  | created _ _ => rfl
  | updated _ _ _ => exact absurd hnone (by simp)

lemma Asked.sortKey_of_some {block : ℕ} (h : Asked rd table e) (hsome : e.updatedAtBlock = some block) :
    e.sortKey = mark block e.row.id := by
  cases h with
  | created _ _ => exact absurd hsome (by simp)
  | updated _ _ _ =>
      rw [Option.some.injEq] at hsome
      rw [← hsome]
      rfl

lemma asked_of_mem (h : e ∈ createdArm rd table cursor ++ updatedArm rd table cursor) : Asked rd table e := by
  rcases List.mem_append.mp h with hcreated | hupdated
  · obtain ⟨row, hrow, rfl⟩ := List.mem_map.mp hcreated
    rw [List.mem_filter, Bool.and_eq_true] at hrow
    exact .created hrow.1 hrow.2.2
  · obtain ⟨row, hrow, he⟩ := List.mem_filterMap.mp hupdated
    obtain ⟨block, hblock, he⟩ := Option.bind_eq_some_iff.mp he
    split_ifs at he with hasked
    rw [Option.some.injEq] at he
    subst he
    exact .updated hrow hasked.2.2 hblock

lemma asked_of_page (h : e ∈ incrementalRows rd table cursor) : Asked rd table e :=
  asked_of_mem ((kept_firstBy _ _).subset h)

/-- A mark that every row raises to its own or leaves is raised by all rows together to one of theirs, or left. -/
lemma mark_foldl {place : DiscoveryCursor → Mark} {own : IncrementalRow → Option Mark}
    (hone : ∀ cursor e, place (cursor.advance e) = (own e).elim (place cursor) (max (place cursor)))
    (cursor : DiscoveryCursor) (rows : List IncrementalRow) :
    place cursor ≤ place (rows.foldl DiscoveryCursor.advance cursor) ∧
      (place (rows.foldl DiscoveryCursor.advance cursor) = place cursor ∨
        ∃ e ∈ rows, own e = some (place (rows.foldl DiscoveryCursor.advance cursor))) := by
  induction rows generalizing cursor with
  | nil => exact ⟨le_rfl, .inl rfl⟩
  | cons e rest ih =>
      obtain ⟨hle, hcases⟩ := ih (cursor.advance e)
      have hnext : place cursor ≤ place (cursor.advance e) ∧
          (place (cursor.advance e) = place cursor ∨ own e = some (place (cursor.advance e))) := by
        rw [hone]
        cases hown : own e with
        | none => exact ⟨le_rfl, .inl rfl⟩
        | some m =>
            refine ⟨le_max_left _ _, ?_⟩
            rcases max_choice (place cursor) m with hleft | hright
            · exact .inl hleft
            · exact .inr (congrArg some hright.symm)
      rw [List.foldl_cons]
      refine ⟨hnext.1.trans hle, ?_⟩
      rcases hcases with hsame | ⟨e', he', hown⟩
      · rw [hsame]
        exact hnext.2.imp_right fun hown => ⟨e, List.mem_cons_self, hown⟩
      · exact .inr ⟨e', List.mem_cons_of_mem e he', hown⟩

/-- Where the mark of the creations stands after some rows. -/
lemma created_foldl (cursor : DiscoveryCursor) (rows : List IncrementalRow) :
    cursor.created ≤ (rows.foldl DiscoveryCursor.advance cursor).created ∧
      ((rows.foldl DiscoveryCursor.advance cursor).created = cursor.created ∨
        ∃ e ∈ rows, e.updatedAtBlock = none ∧
          (rows.foldl DiscoveryCursor.advance cursor).created = e.row.created) := by
  have hone : ∀ (cursor : DiscoveryCursor) (e : IncrementalRow), (cursor.advance e).created =
      (if e.updatedAtBlock = none then some e.row.created else none).elim cursor.created (max cursor.created) := by
    intro cursor e
    rw [DiscoveryCursor.advance]
    cases e.updatedAtBlock with
    | some block =>
        simp only [reduceCtorEq, if_false, Option.elim_none]
        split_ifs <;> rfl
    | none =>
        simp only [if_true, Option.elim_some]
        split_ifs with hlt
        · exact (max_eq_right hlt.le).symm
        · exact (max_eq_left (not_lt.mp hlt)).symm
  obtain ⟨hle, hcases⟩ := mark_foldl hone cursor rows
  refine ⟨hle, hcases.imp_right ?_⟩
  rintro ⟨e, he, hown⟩
  split_ifs at hown with hnone
  exact ⟨e, he, hnone, (Option.some.inj hown).symm⟩

/-- Where the mark of the updates stands after some rows. -/
lemma updated_foldl (cursor : DiscoveryCursor) (rows : List IncrementalRow) :
    cursor.updated ≤ (rows.foldl DiscoveryCursor.advance cursor).updated ∧
      ((rows.foldl DiscoveryCursor.advance cursor).updated = cursor.updated ∨
        ∃ e ∈ rows, ∃ block, e.updatedAtBlock = some block ∧
          (rows.foldl DiscoveryCursor.advance cursor).updated = mark block e.row.id) := by
  have hone : ∀ (cursor : DiscoveryCursor) (e : IncrementalRow), (cursor.advance e).updated =
      (e.updatedAtBlock.map fun block => mark block e.row.id).elim cursor.updated (max cursor.updated) := by
    intro cursor e
    rw [DiscoveryCursor.advance]
    cases e.updatedAtBlock with
    | none =>
        simp only [Option.map_none, Option.elim_none]
        split_ifs <;> rfl
    | some block =>
        simp only [Option.map_some, Option.elim_some]
        split_ifs with hlt
        · exact (max_eq_right hlt.le).symm
        · exact (max_eq_left (not_lt.mp hlt)).symm
  obtain ⟨hle, hcases⟩ := mark_foldl hone cursor rows
  refine ⟨hle, hcases.imp_right ?_⟩
  rintro ⟨e, he, hown⟩
  obtain ⟨block, hblock, heq⟩ := Option.map_eq_some_iff.mp hown
  exact ⟨e, he, block, hblock, heq.symm⟩

/-- Bringing up the mark of the updates leaves the other. -/
lemma created_settle (cursor : DiscoveryCursor) : cursor.settle.created = cursor.created ∧
    cursor.settle.lastBlock = cursor.lastBlock := by
  rw [DiscoveryCursor.settle]
  split_ifs
  · exact ⟨rfl, rfl⟩
  · exact ⟨rfl, rfl⟩

lemma updated_le_settle (cursor : DiscoveryCursor) : cursor.updated ≤ cursor.settle.updated := by
  rw [DiscoveryCursor.settle]
  split_ifs with hbehind
  · exact (mark_lt.mpr (.inl hbehind)).le
  · exact le_rfl

/-- A cursor only moves on. -/
lemma le_advanceAll (cursor : DiscoveryCursor) (rows : List IncrementalRow) :
    cursor.created ≤ (cursor.advanceAll rows).created ∧ cursor.updated ≤ (cursor.advanceAll rows).updated := by
  rw [DiscoveryCursor.advanceAll, (created_settle _).1]
  exact ⟨(created_foldl cursor rows).1, (updated_foldl cursor rows).1.trans (updated_le_settle _)⟩

lemma pending_of_advanceAll (h : Pending (cursor.advanceAll rows) row) : Pending cursor row := by
  obtain ⟨hcreated, hupdated⟩ := le_advanceAll cursor rows
  rcases h with hnew | ⟨block, hblock, hahead⟩
  · exact .inl (hcreated.trans_lt hnew)
  · exact .inr ⟨block, hblock, hupdated.trans_lt hahead⟩

/-- What the incremental query returns is ahead of the mark it belongs to. -/
lemma ahead_of_page (h : e ∈ incrementalRows rd table cursor) :
    e.updatedAtBlock = none ∧ cursor.created < e.row.created ∨
      ∃ block, e.updatedAtBlock = some block ∧ e.row.updatedAtBlock = some block ∧
        cursor.updated < mark block e.row.id := by
  rcases List.mem_append.mp ((kept_firstBy _ _).subset h) with hcreated | hupdated
  · obtain ⟨row, hrow, rfl⟩ := List.mem_map.mp hcreated
    rw [List.mem_filter, Bool.and_eq_true, decide_eq_true_eq] at hrow
    exact .inl ⟨rfl, hrow.2.1⟩
  · obtain ⟨row, hrow, he⟩ := List.mem_filterMap.mp hupdated
    obtain ⟨block, hblock, he⟩ := Option.bind_eq_some_iff.mp he
    split_ifs at he with hasked
    rw [Option.some.injEq] at he
    subst he
    refine .inr ⟨block, rfl, hblock, lt_of_le_of_lt ?_ hasked.1⟩
    rw [DiscoveryCursor.updatedWatermark, DiscoveryCursor.updated]
    split_ifs with hzero
    · rw [hzero]
      rcases Nat.eq_zero_or_pos cursor.lastBlock with hnone | hpos
      · rw [hnone]
      · exact (mark_lt.mpr (.inl hpos)).le
    · exact le_rfl

lemma pending_of_page (h : e ∈ incrementalRows rd table cursor) : Pending cursor e.row := by
  rcases ahead_of_page h with ⟨-, hnew⟩ | ⟨block, -, hblock, hahead⟩
  · exact .inl hnew
  · exact .inr ⟨block, hblock, hahead⟩

/-- A cursor between two passes. -/
structure DiscoveryCursor.Settled (cursor : DiscoveryCursor) (head : ℕ) : Prop where
  bootstrapped : cursor.lastBlock ≠ 0
  ordered : cursor.lastBlock ≤ cursor.lastUpdatedBlock
  head : cursor.lastUpdatedBlock ≤ head

lemma DiscoveryCursor.Settled.mono {head head' : ℕ} (h : cursor.Settled head) (hle : head ≤ head') :
    cursor.Settled head' :=
  ⟨h.bootstrapped, h.ordered, h.head.trans hle⟩

/-- The blocks of the table are at or below the head. -/
structure AtMost (head : ℕ) (table : List PoolMetaRow) : Prop where
  created : ∀ row ∈ table, row.createdBlock ≤ head
  updated : ∀ row ∈ table, ∀ block, row.updatedAtBlock = some block → block ≤ head

lemma DiscoveryCursor.Settled.advanceAll {head : ℕ} (h : cursor.Settled head) (htable : AtMost head table)
    (hrows : ∀ e ∈ rows, Asked rd table e) : (cursor.advanceAll rows).Settled head := by
  obtain ⟨hle, hcreated⟩ := created_foldl cursor rows
  have hupdated := (updated_foldl cursor rows).2
  set after := rows.foldl DiscoveryCursor.advance cursor with hafter
  have hblock : cursor.lastBlock ≤ after.lastBlock := block_le_of_mark_le hle
  have hcreatedHead : after.lastBlock ≤ head := by
    rcases hcreated with hsame | ⟨e, he, -, heq⟩
    · rw [(mark_inj.mp hsame).1]
      exact h.ordered.trans h.head
    · rw [(mark_inj.mp heq).1]
      exact htable.created _ (hrows e he).row_mem.1
  have hupdatedHead : after.lastUpdatedBlock ≤ head := by
    rcases hupdated with hsame | ⟨e, he, block, hsome, heq⟩
    · rw [(mark_inj.mp hsame).1]
      exact h.head
    · rw [(mark_inj.mp heq).1]
      cases hrows e he with
      | created _ _ => simp at hsome
      | updated hrow _ hrowBlock =>
          rw [Option.some.injEq] at hsome
          exact hsome ▸ htable.updated _ hrow _ hrowBlock
  have hne := h.bootstrapped
  show after.settle.Settled head
  rw [DiscoveryCursor.settle]
  split_ifs with hbehind
  · refine ⟨?_, le_rfl, hcreatedHead⟩
    show after.lastBlock ≠ 0
    omega
  · exact ⟨by omega, not_lt.mp hbehind, hupdatedHead⟩

/-- A row that is ahead of the cursor is on the page, or the page is full and the row is ahead of the next
cursor. -/
lemma incremental_covers {head : ℕ} (hids : DistinctIds table) (hcursor : cursor.Settled head)
    (hrow : row ∈ table) (hvalid : rd.valid row = true) (hpending : Pending cursor row) :
    (∃ e ∈ incrementalRows rd table cursor, e.row = row) ∨
      (incrementalRows rd table cursor).length = poolMetaIncrementalLimit ∧
        Pending (cursor.advanceAll (incrementalRows rd table cursor)) row := by
  set rows := incrementalRows rd table cursor with hrows
  have hkept : Kept IncrementalRow.sortKey poolMetaIncrementalLimit
      (createdArm rd table cursor ++ updatedArm rd table cursor) rows := kept_firstBy _ _
  obtain ⟨-, hcreated⟩ := created_foldl cursor rows
  obtain ⟨hupdatedLe, hupdated⟩ := updated_foldl cursor rows
  -- a row on the page with the key of this one is this one
  have hsameKey : ∀ e ∈ rows, ∀ block, e.sortKey = mark block row.id → e.row = row := by
    intro e he block hkey
    exact hids.eq_of_id _ (asked_of_page he).row_mem.1 row hrow (mark_inj.mp hkey).2
  by_cases hpage : ∃ e ∈ rows, e.row = row
  · exact .inl hpage
  refine .inr ?_
  have hother : ∀ e ∈ rows, ∀ block, e.sortKey ≤ mark block row.id → e.sortKey < mark block row.id := by
    intro e he block hle
    exact lt_of_le_of_ne hle fun heq => hpage ⟨e, he, hsameKey e he block heq⟩
  by_cases hnew : cursor.created < row.created
  · have hasked : (⟨row, none, row.createdBlock⟩ : IncrementalRow) ∈
        createdArm rd table cursor ++ updatedArm rd table cursor := by
      refine List.mem_append_left _ (List.mem_map.mpr ⟨row, ?_, rfl⟩)
      simp [hrow, hvalid, hnew]
    rcases hkept.mem_or_le hasked with hmem | ⟨hfull, hle⟩
    · exact absurd ⟨_, hmem, rfl⟩ hpage
    refine ⟨hfull, .inl ?_⟩
    rw [DiscoveryCursor.advanceAll, (created_settle _).1]
    rcases hcreated with hsame | ⟨e, he, hnone, heq⟩
    · rw [hsame]
      exact hnew
    · rw [heq]
      rw [← (asked_of_page he).sortKey_of_none hnone]
      exact hother e he row.createdBlock (hle e he)
  · obtain ⟨block, hblock, hahead⟩ := hpending.resolve_left hnew
    have hcreatedBlock : row.createdBlock ≤ cursor.lastBlock := block_le_of_mark_le (not_lt.mp hnew)
    have hzero : cursor.lastUpdatedBlock ≠ 0 := by
      have hordered := hcursor.ordered
      have hboot := hcursor.bootstrapped
      omega
    have hwatermark : cursor.updatedWatermark = cursor.updated := by
      rw [DiscoveryCursor.updatedWatermark, if_neg hzero, DiscoveryCursor.updated]
    have hasked : (⟨row, some block, block⟩ : IncrementalRow) ∈
        createdArm rd table cursor ++ updatedArm rd table cursor := by
      refine List.mem_append_right _ (List.mem_filterMap.mpr ⟨row, hrow, ?_⟩)
      rw [hblock, Option.bind_some, if_pos ⟨hwatermark ▸ hahead, hcreatedBlock, hvalid⟩]
    rcases hkept.mem_or_le hasked with hmem | ⟨hfull, hle⟩
    · exact absurd ⟨_, hmem, rfl⟩ hpage
    refine ⟨hfull, .inr ⟨block, hblock, ?_⟩⟩
    rw [DiscoveryCursor.advanceAll, DiscoveryCursor.settle]
    split_ifs with hbehind
    · -- the mark was brought up to a creation on the page, whose block is not above this update's
      refine mark_lt.mpr ?_
      show _ < block ∨ _ = block ∧ "" < row.id
      have hblockLe : (rows.foldl DiscoveryCursor.advance cursor).lastBlock ≤ block := by
        rcases hcreated with hsame | ⟨e, he, hnone, heq⟩
        · have hkeptBlock := (mark_inj.mp hsame).1
          have hupdatedBlock := block_le_of_mark_le hupdatedLe
          have hordered := hcursor.ordered
          omega
        · rw [(mark_inj.mp heq).1]
          have hkeyLe : e.sortKey ≤ mark block row.id := hle e he
          rw [(asked_of_page he).sortKey_of_none hnone] at hkeyLe
          exact block_le_of_mark_le hkeyLe
      rcases hblockLe.lt_or_eq with hlt | heq
      · exact .inl hlt
      · exact .inr ⟨heq, empty_lt (hids.nonempty row hrow)⟩
    · rcases hupdated with hsame | ⟨e, he, block', hsome, heq⟩
      · rw [hsame]
        exact hahead
      · rw [heq]
        rw [← (asked_of_page he).sortKey_of_some hsome]
        exact hother e he block (hle e he)

end Incremental

end PolygonArb

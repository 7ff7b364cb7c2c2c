import Mathlib.Data.Finset.Sort
import Mathlib.Data.List.Perm.Basic
import Mathlib.Order.Interval.Finset.Nat
import PolygonArb.Services.StateCache

/-!
# Revisions of the pool state cache

Every write of `StateCache` moves one counter and stamps its entry with the value reached; the consumers
key their results by the pair of address and revision.  A run of operations therefore has a log of stamps.
As long as the counter does not wrap the log is strictly increasing (`revisions_never_reused`), whatever
was removed or evicted in between.  The stored revision saturates at the last 64-bit value, so a log of
`2 ^ 64` stamps has one twice (`not_increasing_of_long_log`).
-/

namespace PolygonArb

open Transition

namespace StateStore

variable {store store' : StateStore} {op : StoreOp} {address : Address}

/-! ## What an operation stamps -/

/-- The entry an operation writes under a new revision. -/
def stampTarget (store : StateStore) : StoreOp → Option Address
  | .insert address state _ _ =>
      if store.maxEntries = 0 ∨
          (store.entry address).any (fun e => poolStatePriceLevelEq e.state state) = true then none
      else some address
  | .patchPool address f _ =>
      if (store.entry address).any (fun e => (f e.state).2) = true then some address else none
  | .remove _ => none
  | .takeDirty => none

/-- The entry an operation stamps, with its revision. -/
def stamp (store : StateStore) (op : StoreOp) : Option (Address × ℕ) :=
  (store.stampTarget op).map fun address => (address, store.nextRevision)

/-- The stamps of a run, in order. -/
def stampLog (store : StateStore) (ops : List StoreOp) : List (Address × ℕ) :=
  outputs StateStore.step stamp store ops

/-- The operation moves the counter. -/
def Moves (store : StateStore) : StoreOp → Prop
  | .remove address => (store.entry address).isSome = true
  | op => (store.stampTarget op).isSome = true

/-- The iteration order of the hash map has every key once. -/
def Iterates (store : StateStore) : StoreOp → Prop
  | .insert _ _ _ order => order.Perm store.inner.keys
  | _ => True

/-- An operation that moves the counter does not wrap it. -/
def StampFits (store : StateStore) (op : StoreOp) : Prop :=
  store.Iterates op ∧ (store.Moves op → store.CounterLeft)

def revisionOf (store : StateStore) (address : Address) : Option ℕ :=
  (store.entry address).map CachedEntry.revision

lemma revisionOf_overwrite {e e' : CachedEntry} (he : store.entry address = some e)
    (hrev : e'.revision = e.revision) (b : Address) :
    revisionOf { store with inner := store.inner.insert address e' } b = store.revisionOf b := by
  by_cases hb : b = address
  · subst hb
    have hold : store.revisionOf b = some e.revision := by rw [revisionOf, he, Option.map_some]
    rw [hold]
    simp [revisionOf, entry, AList.lookup_insert, hrev]
  · simp [revisionOf, entry, AList.lookup_insert_ne hb]

lemma keys_overwrite {e' : CachedEntry} (h : (store.entry address).isSome = true) :
    (store.inner.insert address e').keys.length = store.inner.keys.length := by
  have hmem : address ∈ store.inner.keys := AList.mem_keys.mp (AList.lookup_isSome.mp h)
  rw [AList.keys_insert, List.length_cons, List.length_erase_of_mem hmem]
  exact Nat.sub_add_cancel (List.length_pos_of_mem hmem)

section Effects

variable (store store' : StateStore) (op : StoreOp)

/-- The counter and all revisions are left alone. -/
def Keeps : Prop :=
  store.stamp op = none ∧ store'.generation = store.generation ∧ store'.maxEntries = store.maxEntries ∧
    (op ≠ .takeDirty → store'.dirty = store.dirty) ∧
    store'.inner.keys.length = store.inner.keys.length ∧ ∀ b, store'.revisionOf b = store.revisionOf b

/-- An entry is written under a new revision. -/
def Writes : Prop :=
  ∃ victim address state now, store.stampTarget op = some address ∧ store.Moves op ∧
    store' = store.write victim address state now ∧
    ((store.entry address).isSome = true ∧ victim = none ∨
      ∃ order, op = .insert address state now order ∧ store.entry address = none ∧
        store.maxEntries ≠ 0 ∧ victim = store.victimFor now order)

/-- An entry is removed. -/
def Removes : Prop :=
  ∃ address, op = .remove address ∧ store.Moves op ∧
    store' = { store with
      inner := store.inner.erase address
      generation := store.nextGeneration
      dirty := Insert.insert address store.dirty }

end Effects

lemma keeps_overwrite {e e' : CachedEntry} (he : store.entry address = some e)
    (hrev : e'.revision = e.revision) (hstamp : store.stamp op = none) :
    store.Keeps { store with inner := store.inner.insert address e' } op :=
  ⟨hstamp, rfl, rfl, fun _ => rfl, keys_overwrite (by rw [he]; rfl), revisionOf_overwrite he hrev⟩

lemma insert_cases (address : Address) (state : PoolState) (now : ℕ) (order : List Address) :
    store.Keeps (store.insert address state now order) (.insert address state now order) ∨
      store.Writes (store.insert address state now order) (.insert address state now order) := by
  by_cases hmax : store.maxEntries = 0
  · refine Or.inl ?_
    rw [StateStore.insert, if_pos hmax]
    simp [Keeps, stamp, stampTarget, hmax]
  cases he : store.entry address with
  | none =>
      refine Or.inr ⟨store.victimFor now order, address, state, now, ?_, ?_, ?_, ?_⟩
      · simp [stampTarget, hmax, he]
      · simp [Moves, stampTarget, hmax, he]
      · rw [StateStore.insert, if_neg hmax, he]
      · exact Or.inr ⟨order, rfl, he, hmax, rfl⟩
  | some existing =>
      by_cases heq : poolStatePriceLevelEq existing.state state = true
      · refine Or.inl ?_
        rw [StateStore.insert, if_neg hmax, he]
        dsimp only
        rw [if_pos heq]
        exact keeps_overwrite he rfl (by simp [stamp, stampTarget, he, heq])
      · refine Or.inr ⟨none, address, state, now, ?_, ?_, ?_, Or.inl ⟨?_, rfl⟩⟩
        · simp [stampTarget, hmax, he, heq]
        · simp [Moves, stampTarget, hmax, he, heq]
        · rw [StateStore.insert, if_neg hmax, he]
          dsimp only
          rw [if_neg heq]
        · rw [he]
          rfl

lemma patchPool_cases (address : Address) (f : PoolState → PoolState × Bool) (now : ℕ) :
    store.Keeps (store.patchPool address f now).2 (.patchPool address f now) ∨
      store.Writes (store.patchPool address f now).2 (.patchPool address f now) := by
  cases he : store.entry address with
  | none =>
      refine Or.inl ?_
      rw [StateStore.patchPool, he]
      simp [Keeps, stamp, stampTarget, he]
  | some e =>
      cases hchanged : (f e.state).2 with
      | false =>
          refine Or.inl ?_
          rw [StateStore.patchPool, he]
          dsimp only
          rw [hchanged]
          exact keeps_overwrite he rfl (by simp [stamp, stampTarget, he, hchanged])
      | true =>
          refine Or.inr ⟨none, address, (f e.state).1, now, ?_, ?_, ?_, Or.inl ⟨?_, rfl⟩⟩
          · simp [stampTarget, he, hchanged]
          · simp [Moves, stampTarget, he, hchanged]
          · rw [StateStore.patchPool, he]
            dsimp only
            rw [hchanged, write]
            simp
          · rw [he]
            rfl

lemma remove_cases (address : Address) :
    store.Keeps (store.remove address) (.remove address) ∨
      store.Removes (store.remove address) (.remove address) := by
  cases he : store.entry address with
  | none =>
      refine Or.inl ?_
      rw [StateStore.remove, he]
      simp [Keeps, stamp, stampTarget]
  | some e =>
      refine Or.inr ⟨address, rfl, ?_, ?_⟩
      · simp [Moves, he]
      · rw [StateStore.remove, he]

/-- What an operation can do to the entries. -/
theorem step_cases (h : store.step op = some store') :
    store.Keeps store' op ∨ store.Writes store' op ∨ store.Removes store' op := by
  cases op with
  | insert address state now order =>
      cases h
      exact (insert_cases address state now order).imp_right Or.inl
  | remove address =>
      cases h
      exact (remove_cases address).imp_right Or.inr
  | patchPool address f now =>
      cases h
      exact (patchPool_cases address f now).imp_right Or.inl
  | takeDirty =>
      cases h
      refine Or.inl ?_
      simp [Keeps, stamp, stampTarget, takeDirty, revisionOf, entry]

/-! ## The bound on the size

A full cache makes room for a new key: the sample is not empty, and the victim is one of it. -/

end StateStore

/-- Every candidate of the tiers. -/
def EvictionTiers.All (tiers : EvictionTiers) (P : Address → Prop) : Prop :=
  ∀ c, tiers.expired = some c ∨ tiers.invalid = some c ∨ tiers.untradable = some c ∨
    tiers.tradable = some c → P c.1

/-- The first tier with a candidate. -/
def EvictionTiers.winner (tiers : EvictionTiers) : Option (Address × ℕ) :=
  ((tiers.expired.or tiers.invalid).or tiers.untradable).or tiers.tradable

section Victim

variable {tiers : EvictionTiers} {P : Address → Prop} {rows : List (Address × CachedEntry)}
  {row : Address × CachedEntry} {best : Option (Address × ℕ)} {ttl now : ℕ}

lemma evictionTierCandidate_cases {c : Address × ℕ} {addr : Address} {updatedAt : ℕ}
    (h : evictionTierCandidate best addr updatedAt = some c) : c.1 = addr ∨ best = some c := by
  rw [evictionTierCandidate.eq_def] at h
  split at h
  · rw [← Option.some.inj h]
    exact Or.inl rfl
  · split_ifs at h with hlt htie
    · rw [← Option.some.inj h]
      exact Or.inl rfl
    · rw [← Option.some.inj h]
      exact Or.inl rfl
    · exact Or.inr h

lemma isSome_evictionTierCandidate (best : Option (Address × ℕ)) (addr : Address) (updatedAt : ℕ) :
    (evictionTierCandidate best addr updatedAt).isSome = true := by
  rw [evictionTierCandidate.eq_def]
  split
  · rfl
  · split_ifs <;> rfl

lemma EvictionTiers.All.sortEntry (h : tiers.All P) (hrow : P row.1) :
    (sortEntry ttl now tiers row).All P := by
  have hnew : ∀ {best c}, (∀ d, best = some d → P d.1) →
      evictionTierCandidate best row.1 row.2.updatedAt = some c → P c.1 := by
    intro best c hbest hc
    rcases evictionTierCandidate_cases hc with heq | hold
    · exact heq ▸ hrow
    · exact hbest c hold
  intro c hc
  rw [PolygonArb.sortEntry] at hc
  -- One tier takes the row, the other three are as before.
  split_ifs at hc <;> dsimp only at hc <;> rcases hc with hc | hc | hc | hc
  all_goals
    first
    | exact h c (by simp [hc])
    | exact hnew (fun d hd => h d (by simp [hd])) hc

lemma isSome_winner_sortEntry (tiers : EvictionTiers) (row : Address × CachedEntry) :
    (sortEntry ttl now tiers row).winner.isSome = true := by
  rw [sortEntry]
  split_ifs <;> simp [EvictionTiers.winner, isSome_evictionTierCandidate]

lemma EvictionTiers.All.foldl (h : tiers.All P) (hrows : ∀ row ∈ rows, P row.1) :
    (rows.foldl (PolygonArb.sortEntry ttl now) tiers).All P := by
  induction rows generalizing tiers with
  | nil => exact h
  | cons row rows ih =>
      rw [List.forall_mem_cons] at hrows
      exact ih (h.sortEntry hrows.1) hrows.2

lemma EvictionTiers.All.winner {c : Address × ℕ} (h : tiers.All P) (hc : tiers.winner = some c) :
    P c.1 := by
  simp only [EvictionTiers.winner, Option.or_eq_some_iff] at hc
  apply h c
  tauto

/-- Some row is picked when there is one. -/
lemma pickEvictionVictim_mem (hrows : rows ≠ []) :
    ∃ row ∈ rows, pickEvictionVictim rows ttl now = some row.1 := by
  have hsample : rows.take evictionSample ≠ [] := by simpa [evictionSample] using hrows
  rcases List.eq_nil_or_concat (rows.take evictionSample) with hnil | ⟨init, last, hlast⟩
  · exact absurd hnil hsample
  have hall : EvictionTiers.All ((rows.take evictionSample).foldl (sortEntry ttl now)
      ⟨none, none, none, none⟩) fun address => ∃ row ∈ rows, row.1 = address := by
    refine EvictionTiers.All.foldl ?_ fun row hrow => ⟨row, List.mem_of_mem_take hrow, rfl⟩
    intro c hc
    simp at hc
  have hsome : ((rows.take evictionSample).foldl (sortEntry ttl now)
      ⟨none, none, none, none⟩).winner.isSome = true := by
    rw [hlast, List.concat_eq_append, List.foldl_append]
    exact isSome_winner_sortEntry _ _
  rcases Option.isSome_iff_exists.mp hsome with ⟨c, hc⟩
  rcases hall.winner hc with ⟨row, hrow, haddress⟩
  refine ⟨row, hrow, ?_⟩
  rw [haddress]
  show Option.map Prod.fst (EvictionTiers.winner _) = some c.1
  rw [hc, Option.map_some]

end Victim

namespace StateStore

variable {store store' : StateStore} {op : StoreOp} {address : Address}

/-- A full cache has a victim for a new key. -/
lemma victimFor_mem {order : List Address} {now : ℕ} (horder : order.Perm store.inner.keys)
    (hmax : store.maxEntries ≠ 0) (hfull : store.maxEntries ≤ store.inner.keys.length) :
    ∃ v ∈ store.inner.keys, store.victimFor now order = some v := by
  have hrows : (order.filterMap fun a => (store.entry a).map fun e => (a, e)) ≠ [] := by
    have hpos : 0 < store.inner.keys.length := (Nat.pos_of_ne_zero hmax).trans_le hfull
    rcases List.exists_mem_of_length_pos hpos with ⟨a, ha⟩
    rcases Option.isSome_iff_exists.mp (AList.lookup_isSome.mpr (AList.mem_keys.mpr ha)) with ⟨e, he⟩
    refine List.ne_nil_of_mem (a := (a, e)) (List.mem_filterMap.mpr ⟨a, horder.mem_iff.mpr ha, ?_⟩)
    rw [entry, he, Option.map_some]
  rcases pickEvictionVictim_mem hrows with ⟨row, hrow, hpick⟩
  rcases List.mem_filterMap.mp hrow with ⟨a, ha, hmap⟩
  rcases Option.map_eq_some_iff.mp hmap with ⟨e, -, rfl⟩
  refine ⟨a, horder.mem_iff.mp ha, ?_⟩
  rw [victimFor, if_neg (by omega)]
  exact hpick

/-- The cache stays within its capacity. -/
lemma length_keys_step (hmax : store.maxEntries ≠ 0)
    (hle : store.inner.keys.length ≤ store.maxEntries) (hit : store.Iterates op)
    (h : store.step op = some store') : store'.inner.keys.length ≤ store.maxEntries := by
  rcases step_cases h with ⟨-, -, -, -, hlen, -⟩ | ⟨victim, a, state, now, -, -, rfl, hvictim⟩ |
    ⟨a, rfl, -, rfl⟩
  · exact hlen ▸ hle
  · rcases hvictim with ⟨hmem, rfl⟩ | ⟨order, rfl, hnew, -, rfl⟩
    · show (store.inner.insert a _).keys.length ≤ _
      rw [keys_overwrite hmem]
      exact hle
    · have hnotmem : a ∉ store.inner.keys := by
        intro ha
        rw [← AList.mem_keys, ← AList.lookup_isSome, ← entry, hnew] at ha
        cases ha
      rcases Nat.lt_or_ge store.inner.keys.length store.maxEntries with hroom | hfull
      · rw [victimFor, if_pos hroom]
        show (store.inner.insert a _).keys.length ≤ _
        rw [AList.keys_insert, List.erase_of_not_mem hnotmem]
        exact hroom
      · have hpicked : ∃ v ∈ store.inner.keys, store.victimFor now order = some v :=
          victimFor_mem hit hmax hfull
        rcases hpicked with ⟨v, hv, hpick⟩
        rw [hpick]
        show ((store.inner.erase v).insert a _).keys.length ≤ _
        have herase : a ∉ (store.inner.erase v).keys := by
          rw [AList.keys_erase]
          exact fun ha => hnotmem (List.mem_of_mem_erase ha)
        rw [AList.keys_insert, List.erase_of_not_mem herase, AList.keys_erase, List.length_cons,
          List.length_erase_of_mem hv]
        have hpos := List.length_pos_of_mem hv
        omega
  · show (store.inner.erase a).keys.length ≤ _
    rw [AList.keys_erase]
    exact (List.length_erase_le).trans hle

lemma maxEntries_step (h : store.step op = some store') : store'.maxEntries = store.maxEntries := by
  rcases step_cases h with ⟨-, -, hsame, -⟩ | ⟨victim, a, state, now, -, -, rfl, -⟩ | ⟨a, -, -, rfl⟩
  · exact hsame
  · rfl
  · rfl

/-! ## Stamps and marks -/

lemma moves_of_stamp {row : Address × ℕ} (h : store.stamp op = some row) : store.Moves op := by
  cases op with
  | insert | patchPool | takeDirty =>
      rcases Option.map_eq_some_iff.mp h with ⟨a, ha, -⟩
      show (store.stampTarget _).isSome = true
      rw [ha]
      rfl
  | remove address => cases h

lemma generation_step (hok : store.StampFits op) (h : store.step op = some store') :
    store.generation ≤ store'.generation := by
  rcases step_cases h with ⟨-, hgen, -⟩ | ⟨victim, a, state, now, -, hmoves, rfl, -⟩ |
    ⟨a, -, hmoves, rfl⟩
  · exact hgen.ge
  · exact (Nat.le_succ _).trans_eq (nextGeneration_eq (hok.2 hmoves)).symm
  · exact (Nat.le_succ _).trans_eq (nextGeneration_eq (hok.2 hmoves)).symm

lemma revisionsBelow_step (hbelow : store.RevisionsBelow) (hok : store.StampFits op)
    (h : store.step op = some store') : store'.RevisionsBelow := by
  by_cases hmoves : store.Moves op
  · exact hbelow.step (hok.2 hmoves) h
  · rcases step_cases h with ⟨-, hgen, -, -, -, hrev⟩ | ⟨_, _, _, _, -, hm, -⟩ | ⟨_, -, hm, -⟩
    · intro b e he
      have hb : store.revisionOf b = some e.revision := by rw [← hrev, revisionOf, he, Option.map_some]
      rcases Option.map_eq_some_iff.mp hb with ⟨e', he', hsame⟩
      rw [hgen, ← hsame]
      exact hbelow b e' he'
    · exact absurd hm hmoves
    · exact absurd hm hmoves

lemma revisionOf_write_ne {victim : Option Address} {b : Address} {state : PoolState} {now : ℕ}
    (hb : b ≠ address) (hvictim : victim ≠ some b) :
    (store.write victim address state now).revisionOf b = store.revisionOf b := by
  cases victim with
  | none => simp [revisionOf, write, entry, AList.lookup_insert_ne hb]
  | some v =>
      have hbv : b ≠ v := fun hbv => hvictim (by rw [hbv])
      simp [revisionOf, write, entry, AList.lookup_insert_ne hb, AList.lookup_erase_ne hbv]

lemma revisionOf_write_self {victim : Option Address} {state : PoolState} {now : ℕ} :
    (store.write victim address state now).revisionOf address = some store.nextRevision := by
  simp [revisionOf, write, entry, AList.lookup_insert]

/-- What the log says of an entry is what the entry carries. -/
lemma revisionOf_of_stamp {r : ℕ} (h : store.step op = some store')
    (hstamp : store.stamp op = some (address, r)) : store'.revisionOf address = some r := by
  rcases step_cases h with ⟨hnone, -⟩ | ⟨victim, a, state, now, htarget, -, rfl, -⟩ | ⟨a, rfl, -, -⟩
  · rw [hnone] at hstamp
    cases hstamp
  · rw [stamp, htarget, Option.map_some, Option.some.injEq, Prod.mk.injEq] at hstamp
    rcases hstamp with ⟨rfl, rfl⟩
    exact revisionOf_write_self
  · cases hstamp

lemma revisionOf_erase {b : Address} {generation : ℕ} {dirty : Finset Address} (hb : b ≠ address) :
    revisionOf { store with inner := store.inner.erase address, generation, dirty } b =
      store.revisionOf b := by
  simp [revisionOf, entry, AList.lookup_erase_ne hb]

/-- A revision after a step is an old one of its entry or stamped by the step. -/
lemma revisionOf_step {b : Address} {r : ℕ} (h : store.step op = some store')
    (hrev : store'.revisionOf b = some r) : store.revisionOf b = some r ∨ store.stamp op = some (b, r) := by
  rcases step_cases h with ⟨-, -, -, -, -, hsame⟩ | ⟨victim, a, state, now, htarget, -, rfl, -⟩ |
    ⟨a, rfl, -, rfl⟩
  · exact Or.inl (hsame b ▸ hrev)
  · by_cases hb : b = a
    · subst hb
      rw [revisionOf_write_self, Option.some.injEq] at hrev
      exact Or.inr (by rw [stamp, htarget, Option.map_some, hrev])
    · by_cases hvictim : victim = some b
      · subst hvictim
        simp [revisionOf, write, entry, AList.lookup_insert_ne hb, AList.lookup_erase] at hrev
      · exact Or.inl (revisionOf_write_ne hb hvictim ▸ hrev)
  · by_cases hb : b = a
    · subst hb
      simp [revisionOf, entry, AList.lookup_erase] at hrev
    · exact Or.inl (revisionOf_erase hb ▸ hrev)

/-- A change of an entry's revision marks its pool, and so does its removal. -/
lemma dirty_of_changed {b : Address} (h : store.step op = some store')
    (hchanged : store'.revisionOf b ≠ store.revisionOf b) : b ∈ store'.dirty := by
  rcases step_cases h with ⟨-, -, -, -, -, hsame⟩ | ⟨victim, a, state, now, -, -, rfl, -⟩ |
    ⟨a, rfl, -, rfl⟩
  · exact absurd (hsame b) hchanged
  · by_cases hb : b = a
    · subst hb
      exact Finset.mem_insert_self _ _
    · by_cases hvictim : victim = some b
      · subst hvictim
        exact Finset.mem_insert_of_mem (Finset.mem_union_right _ (by simp))
      · exact absurd (revisionOf_write_ne hb hvictim) hchanged
  · by_cases hb : b = a
    · subst hb
      exact Finset.mem_insert_self _ _
    · exact absurd (revisionOf_erase hb) hchanged

/-- Only a drain takes marks away. -/
lemma dirty_subset_step (hop : op ≠ .takeDirty) (h : store.step op = some store') :
    store.dirty ⊆ store'.dirty := by
  rcases step_cases h with ⟨-, -, -, hdirty, -, -⟩ | ⟨victim, a, state, now, -, -, rfl, -⟩ |
    ⟨a, rfl, -, rfl⟩
  · exact (hdirty hop).ge
  · exact Finset.subset_union_left.trans (Finset.subset_insert _ _)
  · exact Finset.subset_insert _ _

/-! ## Runs -/

/-- The revisions in the cache after a run come from the start or from its log. -/
lemma revisionOf_play {b : Address} {r : ℕ} {ops : List StoreOp}
    (hplay : play StateStore.step store ops = some store') (hrev : store'.revisionOf b = some r) :
    store.revisionOf b = some r ∨ (b, r) ∈ store.stampLog ops := by
  induction ops generalizing store with
  | nil =>
      rw [play, Option.some.injEq] at hplay
      exact Or.inl (hplay ▸ hrev)
  | cons op ops ih =>
      rcases Option.bind_eq_some_iff.mp hplay with ⟨mid, hstep, hrest⟩
      have hcons : store.stampLog (op :: ops) = (store.stamp op).toList ++ mid.stampLog ops :=
        outputs_cons hstep ops
      rw [hcons, List.mem_append, Option.mem_toList]
      rcases ih hrest with hmid | hlog
      · rcases revisionOf_step hstep hmid with hold | hstamp
        · exact Or.inl hold
        · exact Or.inr (Or.inl hstamp)
      · exact Or.inr (Or.inr hlog)

/-- While the counter does not wrap, stamps are strictly increasing. -/
lemma stampLog_increasing {ops : List StoreOp} (hops : Allowed StateStore.step StampFits store ops) :
    (store.stampLog ops).Pairwise fun a b => a.2 < b.2 := by
  have hmono : ∀ s op s', StampFits s op → StateStore.step s op = some s' →
      s.generation ≤ s'.generation := fun _ _ _ => generation_step
  refine outputs_increasing hmono ?_ ?_ hops
  · intro s op b hok hstamp
    rcases Option.map_eq_some_iff.mp hstamp with ⟨a, -, rfl⟩
    show s.generation < s.nextRevision
    rw [nextRevision_eq (hok.2 (moves_of_stamp hstamp))]
    exact Nat.lt_succ_self _
  · intro s op s' b hok hstep hstamp
    have hleft := hok.2 (moves_of_stamp hstamp)
    rcases step_cases hstep with ⟨hnone, -⟩ | ⟨victim, a, state, now, htarget, -, rfl, -⟩ |
      ⟨a, rfl, -, -⟩
    · rw [hnone] at hstamp
      cases hstamp
    · rcases Option.map_eq_some_iff.mp hstamp with ⟨a', -, rfl⟩
      show s.nextRevision ≤ s.nextGeneration
      rw [nextRevision_eq hleft, nextGeneration_eq hleft]
    · cases hstamp

/-- The states an empty cache reaches while its counter does not wrap. -/
lemma invariants_of_allowed {maxEntries ttl : ℕ} (hmax : 0 < maxEntries) {ops : List StoreOp}
    (hops : Allowed StateStore.step StampFits (new maxEntries ttl) ops)
    (hplay : play StateStore.step (new maxEntries ttl) ops = some store) :
    store.inner.keys.length ≤ maxEntries ∧ store.RevisionsBelow := by
  have hreach : Reachable StateStore.step StampFits (fun s => s = new maxEntries ttl) store :=
    hops.reachable (Reachable.init rfl) hplay
  have hinv : store.maxEntries = maxEntries ∧ store.inner.keys.length ≤ maxEntries ∧
      store.RevisionsBelow := by
    refine hreach.inv (fun s => s.maxEntries = maxEntries ∧ s.inner.keys.length ≤ maxEntries ∧
      s.RevisionsBelow) ?_ ?_
    · rintro s rfl
      exact ⟨rfl, Nat.zero_le _, revisionsBelow_new maxEntries ttl⟩
    · rintro s op s' ⟨hsame, hle, hbelow⟩ hok hstep
      refine ⟨?_, ?_, revisionsBelow_step hbelow hok hstep⟩
      · rw [maxEntries_step hstep, hsame]
      · rw [← hsame] at hle ⊢
        exact length_keys_step (by omega) hle hok.1 hstep
  exact hinv.2

/-- Along any run from an empty cache in which the counter does not wrap: the log of stamps is strictly
increasing, the cache stays within its capacity, no revision is above the counter, every revision held was
stamped for its pool, and each next operation stamps what it says, marks every pool whose revision changed
or went, and takes no mark away unless it is the drain. -/
theorem revisions_never_reused {maxEntries ttl : ℕ} (hmax : 0 < maxEntries) {ops : List StoreOp}
    (hops : Allowed StateStore.step StampFits (new maxEntries ttl) ops)
    (hplay : play StateStore.step (new maxEntries ttl) ops = some store) :
    ((new maxEntries ttl).stampLog ops).Pairwise (fun a b => a.2 < b.2) ∧
      store.inner.keys.length ≤ maxEntries ∧
      (∀ b e, store.entry b = some e → e.revision ≤ store.generation) ∧
      (∀ b r, store.revisionOf b = some r → (b, r) ∈ (new maxEntries ttl).stampLog ops) ∧
      ∀ op store', store.step op = some store' →
        (∀ b r, store.stamp op = some (b, r) → store'.revisionOf b = some r) ∧
          (∀ b, store'.revisionOf b ≠ store.revisionOf b → b ∈ store'.dirty) ∧
          (op ≠ .takeDirty → store.dirty ⊆ store'.dirty) := by
  rcases invariants_of_allowed hmax hops hplay with ⟨hle, hbelow⟩
  refine ⟨stampLog_increasing hops, hle, hbelow, ?_, ?_⟩
  · intro b r hrev
    rcases revisionOf_play hplay hrev with hstart | hlog
    · simp [revisionOf, entry, new] at hstart
    · exact hlog
  · intro op store' hstep
    exact ⟨fun b r => revisionOf_of_stamp hstep, fun b => dirty_of_changed hstep,
      fun hop => dirty_subset_step hop hstep⟩

/-- A pool, another in its place, and the first one again. -/
def swapOps : List StoreOp :=
  [.insert 7 .invalid 0 [], .insert 9 .invalid 1 [7], .insert 7 .invalid 2 [9]]

theorem revisions_never_reused_swap :
    ((new 1 600).stampLog swapOps).Pairwise (fun a b => a.2 < b.2) ∧
      (new 1 600).stampLog swapOps = [(7, 1), (9, 2), (7, 3)] := by
  have hops : Allowed StateStore.step StampFits (new 1 600) swapOps := by
    refine ⟨⟨List.Perm.refl _, fun _ => ?_⟩, ?_⟩
    · show 0 + 1 < 2 ^ 64
      decide
    · intro s hs
      cases hs
      refine ⟨⟨List.Perm.refl _, fun _ => ?_⟩, ?_⟩
      · show 1 + 1 < 2 ^ 64
        decide
      · intro s hs
        cases hs
        refine ⟨⟨List.Perm.refl _, fun _ => ?_⟩, fun _ _ => trivial⟩
        show 2 + 1 < 2 ^ 64
        decide
  exact ⟨(revisions_never_reused Nat.one_pos hops rfl).1, rfl⟩

/-! ## When the counter wraps -/

lemma revision_mem_of_stampLog {ops : List StoreOp} {row : Address × ℕ}
    (h : row ∈ store.stampLog ops) : row.2 ∈ Finset.Ico 1 (2 ^ 64) := by
  induction ops generalizing store with
  | nil => cases h
  | cons op ops ih =>
      rw [stampLog, outputs, List.mem_append, Option.mem_toList] at h
      rcases h with h | h
      · rcases Option.map_eq_some_iff.mp h with ⟨a, -, rfl⟩
        show store.nextRevision ∈ _
        rw [Finset.mem_Ico, nextRevision]
        omega
      · cases hstep : store.step op with
        | none =>
            rw [hstep] at h
            cases h
        | some store' =>
            rw [hstep] at h
            exact ih h

/-- There are not that many revisions. -/
theorem not_increasing_of_long_log {ops : List StoreOp} (hlong : 2 ^ 64 ≤ (store.stampLog ops).length) :
    ¬ (store.stampLog ops).Pairwise fun a b => a.2 < b.2 := by
  intro hincreasing
  have hnodup : ((store.stampLog ops).map Prod.snd).Nodup :=
    (List.pairwise_map.mpr hincreasing).imp Nat.ne_of_lt
  have hsub : ((store.stampLog ops).map Prod.snd).toFinset ⊆ Finset.Ico 1 (2 ^ 64) := by
    intro r hr
    rcases List.mem_map.mp (List.mem_toFinset.mp hr) with ⟨row, hrow, rfl⟩
    exact revision_mem_of_stampLog hrow
  have hcard := Finset.card_le_card hsub
  rw [List.toFinset_card_of_nodup hnodup, List.length_map, Nat.card_Ico] at hcard
  omega

/-- An edit of one pool that reports a change. -/
def touchPool (address : Address) : StoreOp := .patchPool address (fun st => (st, true)) 0

lemma length_stampLog_replicate (n : ℕ) (hmem : (store.entry address).isSome = true) :
    (store.stampLog (List.replicate n (touchPool address))).length = n := by
  induction n generalizing store with
  | zero => rfl
  | succ n ih =>
      rcases Option.isSome_iff_exists.mp hmem with ⟨e, he⟩
      have hstamp : store.stamp (touchPool address) = some (address, store.nextRevision) := by
        simp [stamp, stampTarget, touchPool, he]
      have hstep : store.step (touchPool address) =
          some (store.patchPool address (fun st => (st, true)) 0).2 := rfl
      rcases Option.map_eq_some_iff.mp (revisionOf_of_stamp hstep hstamp) with ⟨e', he', -⟩
      rw [List.replicate_succ, stampLog, outputs_cons hstep, hstamp, List.length_append]
      show 1 + (stampLog _ _).length = n + 1
      rw [ih (Option.isSome_iff_exists.mpr ⟨e', he'⟩), Nat.add_comm]

lemma allowed_replicate (n : ℕ) (store : StateStore) :
    Allowed StateStore.step Iterates store (List.replicate n (touchPool address)) := by
  induction n generalizing store with
  | zero => trivial
  | succ n ih => exact ⟨trivial, fun store' _ => ih store'⟩

/-- An insertion and `2 ^ 64` edits of one pool stamp a revision twice. -/
theorem revisions_reused_after_wrap :
    ∃ ops, Allowed StateStore.step Iterates (new 1 600) ops ∧
      ¬ ((new 1 600).stampLog ops).Pairwise fun a b => a.2 < b.2 := by
  rcases (⟨2 ^ 64, rfl⟩ : ∃ n, n = 2 ^ 64) with ⟨n, hn⟩
  have hinsert : (new 1 600).step (.insert 7 .invalid 0 []) =
      some ((new 1 600).insert 7 .invalid 0 []) := rfl
  refine ⟨.insert 7 .invalid 0 [] :: List.replicate n (touchPool 7), ⟨?_, ?_⟩, ?_⟩
  · exact List.Perm.refl _
  · exact fun store' _ => allowed_replicate n store'
  · refine not_increasing_of_long_log ?_
    rw [stampLog, outputs_cons hinsert, List.length_append]
    show 2 ^ 64 ≤ 1 + (stampLog _ _).length
    rw [length_stampLog_replicate n rfl]
    omega

end StateStore

end PolygonArb

import Mathlib.Data.List.AList
import PolygonArb.Lib.Selection

/-!
# Keeping the preferred element by a hash of its key

A table that keeps one element for every key, the preferred one, looks elements up by a hash.  The first
element of a hash has the place in the main map; elements with the same hash and another key go to the
bucket of a second map.  Hashes are compared first and keys in full, so colliding hashes cost time and change
nothing: the elements of the table are those that `keepPreferred` keeps, in some order
(`values_foldl_insert`).
-/

namespace Selection

variable {α κ η : Type*}

/-- The first element of every hash, and the elements that collide with it. -/
structure CollisionTable (η α : Type*) where
  best : AList fun _ : η => α
  collisions : AList fun _ : η => List α

namespace CollisionTable

/-- What a map holds, in the order it holds it. -/
def contents (m : AList fun _ : η => α) : List α := m.entries.map Sigma.snd

def empty : CollisionTable η α := ⟨∅, ∅⟩

/-- All elements. -/
def values (t : CollisionTable η α) : List α := contents t.best ++ (contents t.collisions).flatten

/-- Every element is at the hash of its key, and a bucket belongs to a hash of the main map. -/
structure Sound (key : α → κ) (hash : κ → η) (t : CollisionTable η α) : Prop where
  best : ∀ e ∈ t.best.entries, hash (key e.2) = e.1
  collisions : ∀ e ∈ t.collisions.entries, e.1 ∈ t.best ∧ ∀ a ∈ e.2, hash (key a) = e.1

lemma sound_empty (key : α → κ) (hash : κ → η) : Sound key hash (empty : CollisionTable η α) := by
  constructor <;> simp [empty]

/-- Elements of the table have their hash among those of the main map. -/
lemma Sound.hash_mem {key : α → κ} {hash : κ → η} {t : CollisionTable η α} (hs : t.Sound key hash)
    {a : α} (ha : a ∈ t.values) : hash (key a) ∈ t.best := by
  rw [values, List.mem_append, List.mem_flatten] at ha
  rcases ha with ha | ⟨bucket, hbucket, ha⟩
  · rcases List.mem_map.mp ha with ⟨e, he, rfl⟩
    rw [hs.best e he]
    exact List.mem_keys_of_mem he
  · rcases List.mem_map.mp hbucket with ⟨e, he, rfl⟩
    rw [(hs.collisions e he).2 a ha]
    exact (hs.collisions e he).1

/-! ## One more element -/

variable [DecidableEq η] [DecidableEq κ] (key : α → κ) (hash : κ → η) (prefers : α → α → Bool)

def insert (t : CollisionTable η α) (x : α) : CollisionTable η α :=
  let h := hash (key x)
  match t.best.lookup h with
  | none => { t with best := t.best.insert h x }
  | some kept =>
      if key kept = key x then
        { t with best := if prefers x kept then t.best.insert h x else t.best }
      else
        let bucket := (t.collisions.lookup h).getD []
        { t with collisions := t.collisions.insert h (keepPreferred key prefers bucket x) }

variable {key hash prefers} {t : CollisionTable η α} {x : α}

omit [DecidableEq κ] in
/-- An entry can be taken out of a map. -/
lemma contents_perm {β : Type*} {m : AList fun _ : η => β} {h : η} {a : β}
    (hlookup : m.lookup h = some a) :
    (contents m).Perm (a :: (List.kerase h m.entries).map Sigma.snd) := by
  have hmem : (⟨h, a⟩ : Σ _ : η, β) ∈ m.entries := AList.mem_lookup_iff.mp hlookup
  rcases List.exists_of_kerase (List.mem_keys_of_mem hmem) with ⟨a', before, after, -, heq, herase⟩
  have ha : a = a' := by
    have hlookup' : m.lookup h = some a' := AList.mem_lookup_iff.mpr (by simp [heq])
    exact Option.some.inj (hlookup.symm.trans hlookup')
  rw [contents, herase, heq, List.map_append, List.map_cons, List.map_append, ha]
  exact List.perm_middle

omit [DecidableEq κ] in
lemma contents_insert {β : Type*} (m : AList fun _ : η => β) (h : η) (a : β) :
    contents (m.insert h a) = a :: (List.kerase h m.entries).map Sigma.snd := by
  rw [contents, AList.entries_insert, List.map_cons]

omit [DecidableEq κ] in
lemma mem_entries_insert {β : Type*} {m : AList fun _ : η => β} {h : η} {a : β} {e : Σ _ : η, β}
    (he : e ∈ (m.insert h a).entries) : e = ⟨h, a⟩ ∨ e ∈ m.entries := by
  rw [AList.entries_insert, List.mem_cons] at he
  exact he.imp_right fun he => (List.kerase_sublist h m.entries).subset he

omit [DecidableEq κ] in
/-- What is kept beside an entry has another hash. -/
lemma hash_ne_of_mem_kerase {β : Type*} {m : AList fun _ : η => β} {h : η} {e : Σ _ : η, β}
    (he : e ∈ List.kerase h m.entries) : e.1 ≠ h := by
  intro heq
  have hkey := List.mem_keys_of_mem he
  rw [heq] at hkey
  exact List.notMem_keys_kerase h m.nodupKeys hkey

lemma Sound.insert (hs : t.Sound key hash) : (insert key hash prefers t x).Sound key hash := by
  rw [CollisionTable.insert]
  dsimp only
  cases hlookup : t.best.lookup (hash (key x)) with
  | none =>
      refine ⟨?_, ?_⟩
      · intro e he
        rcases mem_entries_insert he with rfl | he
        · rfl
        · exact hs.best e he
      · intro e he
        exact ⟨(AList.mem_insert _).mpr (.inr (hs.collisions e he).1), (hs.collisions e he).2⟩
  | some kept =>
      dsimp only
      split_ifs with hsame hwins
      · refine ⟨?_, ?_⟩
        · intro e he
          rcases mem_entries_insert he with rfl | he
          · rfl
          · exact hs.best e he
        · intro e he
          exact ⟨(AList.mem_insert _).mpr (.inr (hs.collisions e he).1), (hs.collisions e he).2⟩
      · exact hs
      · refine ⟨hs.best, ?_⟩
        intro e he
        rcases mem_entries_insert he with rfl | he
        · refine ⟨AList.lookup_isSome.mp (by simp [hlookup]), ?_⟩
          intro a ha
          rcases mem_keepPreferred ha with ha | rfl
          · cases hbucket : t.collisions.lookup (hash (key x)) with
            | none => simp [hbucket] at ha
            | some bucket =>
                rw [hbucket] at ha
                exact (hs.collisions _ (AList.mem_lookup_iff.mp hbucket)).2 a ha
          · rfl
        · exact hs.collisions e he

omit [DecidableEq κ] in
/-- The bucket of a hash, empty when there is none, beside the other buckets. -/
lemma flatten_contents_perm (m : AList fun _ : η => List α) (h : η) :
    (contents m).flatten.Perm
      (((List.kerase h m.entries).map Sigma.snd).flatten ++ (m.lookup h).getD []) := by
  cases hlookup : m.lookup h with
  | none =>
      rw [Option.getD_none, List.append_nil, List.kerase_of_notMem_keys (AList.lookup_eq_none.mp hlookup)]
      rfl
  | some bucket =>
      refine (contents_perm hlookup).flatten.trans ?_
      rw [List.flatten_cons, Option.getD_some]
      exact List.perm_append_comm

omit [DecidableEq κ] in
/-- An element with the hash of another one can only be in the bucket of the hash. -/
lemma Sound.key_notMem_others (hs : t.Sound key hash) {kept : α}
    (hlookup : t.best.lookup (hash (key x)) = some kept) (hdiff : key kept ≠ key x) :
    key x ∉ (contents t.best ++
      ((List.kerase (hash (key x)) t.collisions.entries).map Sigma.snd).flatten).map key := by
  intro hin
  rcases List.mem_map.mp hin with ⟨a, ha, hkey⟩
  rcases List.mem_append.mp ha with ha | ha
  · rcases List.mem_map.mp ha with ⟨⟨h, b⟩, he, rfl⟩
    have hhash := hs.best _ he
    rw [hkey] at hhash
    subst hhash
    have hkept := Option.some.inj (hlookup.symm.trans (AList.mem_lookup_iff.mpr he))
    exact hdiff (hkept ▸ hkey)
  · rcases List.mem_flatten.mp ha with ⟨bucket, hbucket, ha⟩
    rcases List.mem_map.mp hbucket with ⟨e, he, rfl⟩
    have hhash := (hs.collisions e ((List.kerase_sublist _ _).subset he)).2 a ha
    exact hash_ne_of_mem_kerase he (hhash.symm.trans (by rw [hkey]))

/-- An element changes the table as it changes a list of elements without hashes. -/
lemma values_insert (hs : t.Sound key hash) (hnodup : (t.values.map key).Nodup) :
    (insert key hash prefers t x).values.Perm (keepPreferred key prefers t.values x) := by
  rw [CollisionTable.insert]
  dsimp only
  cases hlookup : t.best.lookup (hash (key x)) with
  | none =>
      have hnew : key x ∉ t.values.map key := by
        intro hin
        rcases List.mem_map.mp hin with ⟨a, ha, heq⟩
        exact AList.lookup_eq_none.mp hlookup (heq ▸ hs.hash_mem ha)
      rw [keepPreferred_of_new hnew, values, contents_insert, List.kerase_of_notMem_keys]
      · exact (List.perm_append_singleton x t.values).symm
      · exact AList.lookup_eq_none.mp hlookup
  | some kept =>
      dsimp only
      have hbest : t.values.Perm (kept :: ((List.kerase (hash (key x)) t.best.entries).map Sigma.snd ++
          (contents t.collisions).flatten)) := (contents_perm hlookup).append_right _
      by_cases hsame : key kept = key x
      · have hlist : (keepPreferred key prefers _ x).Perm (keepPreferred key prefers _ x) :=
          keepPreferred_perm hbest hnodup
        rw [keepPreferred, if_pos hsame] at hlist
        rw [if_pos hsame]
        split_ifs at hlist ⊢ with hwins
        · rw [values, contents_insert]
          exact hlist.symm
        · exact hbest.trans hlist.symm
      · rw [if_neg hsame]
        have hothers := hs.key_notMem_others hlookup hsame
        have hsplit : t.values.Perm (contents t.best ++
            ((List.kerase (hash (key x)) t.collisions.entries).map Sigma.snd).flatten ++
            (t.collisions.lookup (hash (key x))).getD []) := by
          rw [List.append_assoc]
          exact (flatten_contents_perm t.collisions (hash (key x))).append_left _
        have hlist : (keepPreferred key prefers _ x).Perm (keepPreferred key prefers _ x) :=
          keepPreferred_perm hsplit hnodup
        rw [keepPreferred_append hothers, List.append_assoc] at hlist
        refine .trans ?_ hlist.symm
        rw [values, contents_insert, List.flatten_cons]
        exact List.perm_append_comm.append_left _

/-- The elements of the table are those kept without hashes. -/
theorem values_foldl_insert (xs : List α) :
    (xs.foldl (insert key hash prefers) empty).Sound key hash ∧
      (xs.foldl (insert key hash prefers) empty).values.Perm
        (xs.foldl (keepPreferred key prefers) []) := by
  induction xs using List.reverseRecOn with
  | nil => exact ⟨sound_empty key hash, .refl _⟩
  | append_singleton xs x ih =>
      rcases ih with ⟨hs, hperm⟩
      have hnodup : ((xs.foldl (keepPreferred key prefers) []).map key).Nodup :=
        nodup_foldl_keepPreferred xs List.nodup_nil
      have hnodup' := (hperm.map key).nodup_iff.mpr hnodup
      rw [List.foldl_append, List.foldl_append]
      exact ⟨hs.insert, (values_insert hs hnodup').trans (keepPreferred_perm hperm hnodup')⟩

end CollisionTable

end Selection

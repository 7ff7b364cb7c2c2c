import Mathlib.Data.List.Chain
import Mathlib.Logic.Relation
import Mathlib.Logic.Function.Basic
import Mathlib.Data.Set.Basic

/-!
# Low links

The tables of a depth-first search over an undirected multigraph given by adjacency lists: `adj v`
lists the neighbours of `v`, each with the edge that leads there.  `Reach X` is reachability that
avoids the edges of `X`, so an edge is a bridge when its ends do not reach each other avoiding it.

`Tree`, `LowOk` and `FlagsOk` say what discovery clocks, low links and bridge flags mean in the
middle of a search.  `reach_of_low_le` and `not_reach_of_lt_low` are the two halves of the low-link
criterion; the rest of the file is what discovering and finishing a node do to the three.
-/

namespace LowLink

open Relation

variable {V E : Type}

/-- What the adjacency lists of an undirected multigraph without loops satisfy; `otherEnd e v` is
the end of `e` opposite to `v`. -/
structure EdgeLists (adj : V → List (V × E)) (otherEnd : E → V → V) : Prop where
  symm : ∀ {v w e}, (w, e) ∈ adj v → (v, e) ∈ adj w
  ends : ∀ {v w v' w' e}, (w, e) ∈ adj v → (w', e) ∈ adj v' →
    (v' = v ∧ w' = w) ∨ (v' = w ∧ w' = v)
  ne : ∀ {v w e}, (w, e) ∈ adj v → w ≠ v
  otherEnd_eq : ∀ {v w e}, (w, e) ∈ adj v → otherEnd e v = w

variable (adj : V → List (V × E))

/-! ## What the tables say -/

/-- Reachability along edges outside `X`. -/
def Reach (X : Set E) : V → V → Prop := ReflTransGen fun a b => ∃ e ∉ X, (b, e) ∈ adj a

/-- The search tree: discovery clocks `d`, parent edges `par` and the nodes of the stack, top first.
Nodes up to clock `base` belong to earlier roots; the nodes above it form one tree, whose open
branch is the stack. -/
structure Tree (base clock : ℕ) (d : V → ℕ) (par : V → Option E) (nodes : List V) : Prop where
  base_le : base ≤ clock
  disc_le : ∀ v, d v ≤ clock
  disc_inj : ∀ {u v}, d u ≠ 0 → d u = d v → u = v
  old_closed : ∀ {v x e}, d v ≠ 0 → d v ≤ base → (x, e) ∈ adj v → d x ≠ 0 ∧ d x ≤ base
  sorted : nodes.Pairwise fun a b => d b < d a
  open_base : ∀ v ∈ nodes, base < d v
  parent_none : ∀ {v}, d v = 0 → par v = none
  parent_lt : ∀ {v e}, base < d v → par v = some e → ∃ p, (p, e) ∈ adj v ∧ base < d p ∧ d p < d v
  root_disc : ∀ {v}, base < d v → par v = none → d v = base + 1
  chain : nodes.IsChain fun a b => ∃ e, par a = some e ∧ (b, e) ∈ adj a
  bottom : ∀ v, nodes.getLast? = some v → par v = none
  no_cross : ∀ {x a v e}, base < d x → x ∉ nodes → a ∈ nodes → d x < d a → (v, e) ∈ adj x → d v < d a
  tree_above : ∀ {a v e p}, a ∈ nodes → d a < d v → par v = some e → (p, e) ∈ adj v → d a ≤ d p

/-- The parent edges of the tree nodes discovered no later than `v`. -/
def treeEdges (base : ℕ) (d : V → ℕ) (par : V → Option E) (v : V) : Set E :=
  {e | ∃ y, base < d y ∧ d y ≤ d v ∧ par y = some e}

/-- An entry the search has dealt with. -/
def Seen (base : ℕ) (d : V → ℕ) (par : V → Option E) (low : V → ℕ) (v x : V) (e : E) : Prop :=
  base < d x ∧ (par v = some e ∨ low v ≤ d x)

/-- The low links: each is attained by a walk below its node, and none is above what the entries
and the finished nodes hanging off the branch give. -/
structure LowOk (base : ℕ) (d : V → ℕ) (par : V → Option E) (low : V → ℕ)
    (stack : List (V × ℕ)) : Prop where
  low_le : ∀ {v}, base < d v → low v ≤ d v
  low_witness : ∀ {v}, base < d v →
    ∃ x, base < d x ∧ d x = low v ∧ Reach adj (treeEdges base d par v) v x
  entries_open : ∀ {v i x e}, (v, i) ∈ stack → (x, e) ∈ (adj v).take i → Seen base d par low v x e
  entries_done : ∀ {v x e}, base < d v → v ∉ stack.map Prod.fst → (x, e) ∈ adj v →
    Seen base d par low v x e
  low_done : ∀ {v a}, base < d v → v ∉ stack.map Prod.fst → a ∈ stack.map Prod.fst → d a < d v →
    (∀ b ∈ stack.map Prod.fst, d b < d v → d b ≤ d a) → low a ≤ low v

/-- The flags: exact on earlier components and on the parent edges of finished nodes, unset
elsewhere. -/
structure FlagsOk (base : ℕ) (d : V → ℕ) (par : V → Option E) (bridges : E → Bool)
    (nodes : List V) : Prop where
  old_flag : ∀ {v x e}, d v ≠ 0 → d v ≤ base → (x, e) ∈ adj v →
    (bridges e = true ↔ ¬ Reach adj {e} v x)
  done_flag : ∀ {v e p}, base < d v → v ∉ nodes → par v = some e → (p, e) ∈ adj v →
    (bridges e = true ↔ ¬ Reach adj {e} v p)
  flag_true : ∀ {e}, bridges e = true →
    (∃ v w, d v ≠ 0 ∧ d v ≤ base ∧ (w, e) ∈ adj v) ∨
      ∃ v, base < d v ∧ v ∉ nodes ∧ par v = some e

/-! ## Walks -/

section Walks

variable {adj : V → List (V × E)} {otherEnd : E → V → V} {base clock : ℕ} {d low : V → ℕ}
  {par : V → Option E} {nodes : List V} {stack : List (V × ℕ)} {bridges : E → Bool}
  {X Y : Set E} {u v w p : V} {e : E} {i : ℕ}

lemma Reach.mono (hXY : X ⊆ Y) (h : Reach adj Y u v) : Reach adj X u v := by
  refine ReflTransGen.mono ?_ _ _ h
  rintro a b ⟨e, he, hab⟩
  exact ⟨e, fun heX => he (hXY heX), hab⟩

lemma Reach.symm (hadj : EdgeLists adj otherEnd) (h : Reach adj X u v) : Reach adj X v u := by
  induction h with
  | refl => exact ReflTransGen.refl
  | tail _ hbc ih =>
      rcases hbc with ⟨e, he, hbc⟩
      exact ReflTransGen.head ⟨e, he, hadj.symm hbc⟩ ih

/-- A set that no edge outside `X` leaves is not left by a walk that avoids `X`. -/
lemma Reach.stays {S : V → Prop} (hS : ∀ {a b e}, S a → (b, e) ∈ adj a → e ∉ X → S b)
    (h : Reach adj X u v) (hu : S u) : S v := by
  induction h with
  | refl => exact hu
  | tail _ hbc ih =>
      rcases hbc with ⟨e, he, hbc⟩
      exact hS ih hbc he

namespace Tree

/-- Two nodes of the tree do not share their parent edge. -/
lemma parent_inj (hadj : EdgeLists adj otherEnd) (T : Tree adj base clock d par nodes)
    (hu : base < d u) (hv : base < d v) (hpu : par u = some e) (hpv : par v = some e) : u = v := by
  rcases T.parent_lt hu hpu with ⟨p, hp, -, hlt⟩
  rcases T.parent_lt hv hpv with ⟨p', hp', -, hlt'⟩
  rcases hadj.ends hp hp' with ⟨h, -⟩ | ⟨h, h'⟩
  · exact h.symm
  · subst h h'
    omega

/-- Parent edges lead from every node to the root of the tree. -/
lemma exists_root (T : Tree adj base clock d par nodes) :
    ∀ (n : ℕ) (v : V), d v = n → base < n → (∀ e ∈ X, e ∉ treeEdges base d par v) →
      ∃ r, d r = base + 1 ∧ Reach adj X v r := by
  intro n
  induction n using Nat.strong_induction_on with
  | _ n ih =>
      intro v hn hv hX
      subst hn
      cases hp : par v with
      | none => exact ⟨v, T.root_disc hv hp, ReflTransGen.refl⟩
      | some e =>
          rcases T.parent_lt hv hp with ⟨p, hmem, hbase, hlt⟩
          have hXp : ∀ e ∈ X, e ∉ treeEdges base d par p := by
            rintro e' he' ⟨y, hy, hyp, hpar⟩
            exact hX e' he' ⟨y, hy, by omega, hpar⟩
          rcases ih (d p) hlt p rfl hbase hXp with ⟨r, hr, hreach⟩
          exact ⟨r, hr, ReflTransGen.head ⟨e, fun heX => hX e heX ⟨v, hv, le_rfl, hp⟩, hmem⟩ hreach⟩

lemma reach (hadj : EdgeLists adj otherEnd) (T : Tree adj base clock d par nodes)
    (hu : base < d u) (hv : base < d v) (hXu : ∀ e ∈ X, e ∉ treeEdges base d par u)
    (hXv : ∀ e ∈ X, e ∉ treeEdges base d par v) : Reach adj X u v := by
  rcases T.exists_root _ u rfl hu hXu with ⟨r, hr, hur⟩
  rcases T.exists_root _ v rfl hv hXv with ⟨r', hr', hvr⟩
  have hrr : r = r' := T.disc_inj (by omega) (hr.trans hr'.symm)
  subst hrr
  exact ReflTransGen.trans hur (hvr.symm hadj)

/-- Nodes discovered before `w` are joined without the parent edge of `w`. -/
lemma reach_before (hadj : EdgeLists adj otherEnd) (T : Tree adj base clock d par nodes)
    (hw : base < d w) (he : par w = some e) (hu : base < d u) (hv : base < d v)
    (huw : d u < d w) (hvw : d v < d w) : Reach adj {e} u v := by
  have hX : ∀ x, d x < d w → ∀ e' ∈ ({e} : Set E), e' ∉ treeEdges base d par x := by
    rintro x hx e' rfl ⟨y, hy, hyx, hpar⟩
    have hyw := T.parent_inj hadj hy hw hpar he
    subst hyw
    omega
  exact T.reach hadj hu hv (hX u huw) (hX v hvw)

/-- A node with a parent edge has its parent below it on the stack. -/
lemma exists_below (T : Tree adj base clock d par (v :: nodes)) (he : par v = some e) :
    ∃ p rest, nodes = p :: rest ∧ (p, e) ∈ adj v := by
  cases nodes with
  | nil =>
      have := T.bottom v rfl
      rw [he] at this
      cases this
  | cons p rest =>
      rcases (List.isChain_cons_cons.1 T.chain).1 with ⟨e', he', hmem⟩
      rw [he] at he'
      cases he'
      exact ⟨p, rest, rfl, hmem⟩

/-- The top of the stack is the latest open node. -/
lemma le_top (T : Tree adj base clock d par (v :: nodes)) (hu : u ∈ v :: nodes) : d u ≤ d v := by
  rcases List.mem_cons.1 hu with rfl | hu
  · exact le_rfl
  · exact ((List.pairwise_cons.1 T.sorted).1 u hu).le

lemma notMem_of_lt (T : Tree adj base clock d par (v :: nodes)) (h : d v < d u) :
    u ∉ v :: nodes := fun hu => absurd (T.le_top hu) (by omega)

/-- Below the parent of the top there is nothing open between the two. -/
lemma notMem_between (T : Tree adj base clock d par (v :: p :: nodes)) (hp : d p < d u)
    (hv : d u < d v) : u ∉ v :: p :: nodes := by
  intro hu
  rcases List.mem_cons.1 hu with rfl | hu
  · omega
  · have hle : d u ≤ d p := by
      rcases List.mem_cons.1 hu with rfl | hu
      · exact le_rfl
      · exact ((List.pairwise_cons.1 (List.pairwise_cons.1 T.sorted).2).1 u hu).le
    omega

end Tree

/-- A low link that reaches the parent gives a walk around the parent edge. -/
lemma reach_of_low_le (hadj : EdgeLists adj otherEnd) (T : Tree adj base clock d par nodes)
    (L : LowOk adj base d par low stack) (hv : base < d v) (he : par v = some e)
    (hp : (p, e) ∈ adj v) (hlow : low v ≤ d p) : Reach adj {e} v p := by
  rcases T.parent_lt hv he with ⟨p', hp', hbase, hlt⟩
  obtain rfl : p = p' := (hadj.otherEnd_eq hp).symm.trans (hadj.otherEnd_eq hp')
  rcases L.low_witness hv with ⟨x, hx, hxlow, hreach⟩
  have hsub : ({e} : Set E) ⊆ treeEdges base d par v := by
    rintro e' rfl
    exact ⟨v, hv, le_rfl, he⟩
  exact ReflTransGen.trans (hreach.mono hsub)
    (T.reach_before hadj hv he hx hbase (by omega) hlt)

/-- Once the entries of the top are dealt with, every node discovered since has its entries dealt
with and a low link no lower than the top's. -/
lemma seen_of_top_le (T : Tree adj base clock d par (v :: stack.map Prod.fst))
    (L : LowOk adj base d par low ((v, i) :: stack)) (hend : (adj v).length ≤ i)
    (hu : d v ≤ d u) : low v ≤ low u ∧ ∀ {x e}, (x, e) ∈ adj u → Seen base d par low u x e := by
  have hv := T.open_base v List.mem_cons_self
  rcases hu.eq_or_lt with heq | hlt
  · obtain rfl := T.disc_inj (by omega) heq
    refine ⟨le_rfl, fun hq => L.entries_open List.mem_cons_self ?_⟩
    rw [List.take_of_length_le hend]
    exact hq
  · have hout := T.notMem_of_lt hlt
    refine ⟨L.low_done (by omega) hout List.mem_cons_self hlt ?_, L.entries_done (by omega) hout⟩
    intro b hb _
    exact T.le_top hb

/-- A low link above the parent makes the parent edge the only way out of the subtree. -/
lemma not_reach_of_lt_low (hadj : EdgeLists adj otherEnd)
    (T : Tree adj base clock d par (v :: p :: nodes)) (hnodes : p :: nodes = stack.map Prod.fst)
    (L : LowOk adj base d par low ((v, i) :: stack)) (hend : (adj v).length ≤ i)
    (he : par v = some e) (hlow : d p < low v) : ¬ Reach adj {e} v p := by
  intro hreach
  have hv := T.open_base v List.mem_cons_self
  have hpv : d p < d v := (List.pairwise_cons.1 T.sorted).1 p List.mem_cons_self
  have hclosed : ∀ {u x e'}, d v ≤ d u → (x, e') ∈ adj u → e' ∉ ({e} : Set E) → d v ≤ d x := by
    intro u x e' hu hq he'
    by_contra hx
    rcases seen_of_top_le (hnodes ▸ T) L hend hu with ⟨hlowu, hseen⟩
    rcases hseen hq with ⟨hbase, hpar | hle⟩
    · -- a tree edge leads back into the subtree, unless it is the parent edge of the top
      rcases hu.eq_or_lt with heq | hlt
      · obtain rfl := T.disc_inj (by omega) heq
        rw [he] at hpar
        exact he' (Option.some.inj hpar).symm
      · exact hx (T.tree_above List.mem_cons_self hlt hpar hq)
    · -- any other node in between is finished, and a finished node has no later neighbour
      have hout : x ∉ v :: p :: nodes := T.notMem_between (by omega) (by omega)
      have hlt : d u < d v :=
        T.no_cross hbase hout List.mem_cons_self (by omega) (hadj.symm hq)
      omega
  have hp : d v ≤ d p := Reach.stays (S := fun u => d v ≤ d u) hclosed hreach le_rfl
  omega

/-! ## How the tables change -/

/-- Moving a frame past an entry that has been dealt with. -/
lemma LowOk.advance (above below : List (V × ℕ)) {x : V}
    (L : LowOk adj base d par low (above ++ (v, i) :: below)) (hget : (adj v)[i]? = some (x, e))
    (hseen : Seen base d par low v x e) :
    LowOk adj base d par low (above ++ (v, i + 1) :: below) := by
  have hnodes : (above ++ (v, i + 1) :: below).map Prod.fst =
      (above ++ (v, i) :: below).map Prod.fst := by simp
  constructor
  · exact L.low_le
  · exact L.low_witness
  · intro u j y e' hu hy
    rcases List.mem_append.1 hu with hu | hu
    · exact L.entries_open (List.mem_append_left _ hu) hy
    · rcases List.mem_cons.1 hu with hu | hu
      · cases hu
        rw [List.take_add_one, hget, Option.toList_some, List.mem_append, List.mem_singleton] at hy
        rcases hy with hy | hy
        · exact L.entries_open (List.mem_append_right _ List.mem_cons_self) hy
        · cases hy
          exact hseen
      · exact L.entries_open (List.mem_append_right _ (List.mem_cons_of_mem _ hu)) hy
  · rw [hnodes]
    exact L.entries_done
  · rw [hnodes]
    exact L.low_done

/-- Lowering the link of an open node to a value that a walk below it attains. -/
lemma LowOk.lower [DecidableEq V] {m : ℕ} (L : LowOk adj base d par low stack)
    (hv : v ∈ stack.map Prod.fst) (hm : m ≤ low v)
    (hw : ∃ x, base < d x ∧ d x = m ∧ Reach adj (treeEdges base d par v) v x) :
    LowOk adj base d par (Function.update low v m) stack := by
  have hle : ∀ u, Function.update low v m u ≤ low u := by
    intro u
    by_cases hu : u = v
    · subst hu
      simpa using hm
    · simp [hu]
  have hseen : ∀ {u x e}, Seen base d par low u x e →
      Seen base d par (Function.update low v m) u x e := by
    rintro u x e ⟨hx, hpar | hlow⟩
    · exact ⟨hx, Or.inl hpar⟩
    · exact ⟨hx, Or.inr ((hle u).trans hlow)⟩
  constructor
  · intro u hu
    exact (hle u).trans (L.low_le hu)
  · intro u hu
    by_cases huv : u = v
    · subst huv
      simpa using hw
    · simpa [huv] using L.low_witness hu
  · intro u j x e hu hx
    exact hseen (L.entries_open hu hx)
  · intro u x e hu hout hx
    exact hseen (L.entries_done hu hout hx)
  · intro u a hu hout ha hau hdeep
    have huv : u ≠ v := by
      rintro rfl
      exact hout hv
    rw [Function.update_of_ne huv]
    exact (hle a).trans (L.low_done hu hout ha hau hdeep)

/-- Dropping the top frame, once its entries are dealt with and the frame below is as low. -/
lemma LowOk.pop (T : Tree adj base clock d par (v :: stack.map Prod.fst))
    (L : LowOk adj base d par low ((v, i) :: stack)) (hend : (adj v).length ≤ i)
    (hbelow : ∀ p nodes, stack.map Prod.fst = p :: nodes → low p ≤ low v) :
    LowOk adj base d par low stack := by
  have hsorted := List.pairwise_cons.1 T.sorted
  constructor
  · exact L.low_le
  · exact L.low_witness
  · intro u j x e hu hx
    exact L.entries_open (List.mem_cons_of_mem _ hu) hx
  · intro u x e hu hout hx
    by_cases huv : u = v
    · subst huv
      exact (seen_of_top_le T L hend le_rfl).2 hx
    · exact L.entries_done hu (by simpa [huv] using hout) hx
  · intro u a hu hout ha hau hdeep
    rcases le_or_gt (d v) (d u) with hvu | huv
    · -- the deepest frame below a node of the subtree is the new top
      have hlow : low v ≤ low u := (seen_of_top_le T L hend hvu).1
      cases hst : stack.map Prod.fst with
      | nil =>
          rw [hst] at ha
          cases ha
      | cons p nodes =>
          have hp : p ∈ stack.map Prod.fst := by simp [hst]
          have hpa : d p ≤ d a := hdeep p hp (lt_of_lt_of_le (hsorted.1 p hp) hvu)
          have hap : d a ≤ d p := by
            rw [hst] at ha
            rcases List.mem_cons.1 ha with rfl | ha
            · exact le_rfl
            · rw [hst] at hsorted
              exact ((List.pairwise_cons.1 hsorted.2).1 a ha).le
          have hbase := T.open_base p (List.mem_cons_of_mem _ hp)
          obtain rfl : p = a := T.disc_inj (by omega) (by omega)
          exact (hbelow p nodes hst).trans hlow
    · have huv' : u ≠ v := by
        rintro rfl
        omega
      refine L.low_done hu (by simpa [huv'] using hout) (List.mem_cons_of_mem _ ha) hau ?_
      intro b hb hbu
      rcases List.mem_cons.1 hb with rfl | hb
      · omega
      · exact hdeep b hb hbu

/-- Dropping the top of the branch. -/
lemma Tree.pop (T : Tree adj base clock d par (v :: nodes)) : Tree adj base clock d par nodes := by
  have hsorted := List.pairwise_cons.1 T.sorted
  refine ⟨T.base_le, T.disc_le, T.disc_inj, T.old_closed, hsorted.2,
    fun u hu => T.open_base u (List.mem_cons_of_mem _ hu), T.parent_none, T.parent_lt, T.root_disc,
    T.chain.of_cons, ?_, ?_, ?_⟩
  · intro u hu
    refine T.bottom u ?_
    rw [List.getLast?_cons, hu]
    rfl
  · intro x a u e hx hout ha hxa hu
    by_cases hxv : x = v
    · subst hxv
      have := hsorted.1 a ha
      omega
    · exact T.no_cross hx (by simp [hxv, hout]) (List.mem_cons_of_mem _ ha) hxa hu
  · intro a u e p ha hau he hp
    exact T.tree_above (List.mem_cons_of_mem _ ha) hau he hp

/-- A finished root has no flag to set. -/
lemma FlagsOk.popRoot (F : FlagsOk adj base d par bridges (v :: nodes)) (hv : par v = none) :
    FlagsOk adj base d par bridges nodes := by
  refine ⟨F.old_flag, ?_, ?_⟩
  · intro u e p hu hout he hp
    by_cases huv : u = v
    · subst huv
      rw [hv] at he
      cases he
    · exact F.done_flag hu (by simp [huv, hout]) he hp
  · intro e he
    rcases F.flag_true he with h | ⟨u, hu, hout, hue⟩
    · exact Or.inl h
    · exact Or.inr ⟨u, hu, fun h => hout (List.mem_cons_of_mem _ h), hue⟩

/-- Setting the flag of the parent edge of the finished top. -/
lemma FlagsOk.pop [DecidableEq E] (hadj : EdgeLists adj otherEnd)
    (T : Tree adj base clock d par (v :: nodes)) (F : FlagsOk adj base d par bridges (v :: nodes))
    (he : par v = some e) (hp : (p, e) ∈ adj v) (hpb : base < d p) {b : Bool}
    (hb : b = true ↔ ¬ Reach adj {e} v p) :
    FlagsOk adj base d par (Function.update bridges e b) nodes := by
  have hv := T.open_base v List.mem_cons_self
  constructor
  · intro u x e' hu hub hx
    have hne : e' ≠ e := by
      rintro rfl
      rcases hadj.ends hp hx with ⟨rfl, -⟩ | ⟨rfl, -⟩ <;> omega
    rw [Function.update_of_ne hne]
    exact F.old_flag hu hub hx
  · intro u e' p' hu hout hue hp'
    by_cases huv : u = v
    · subst huv
      obtain rfl : e' = e := Option.some.inj (hue.symm.trans he)
      obtain rfl : p' = p := (hadj.otherEnd_eq hp').symm.trans (hadj.otherEnd_eq hp)
      rw [Function.update_self]
      exact hb
    · have hne : e' ≠ e := by
        rintro rfl
        exact huv (T.parent_inj hadj hu hv hue he)
      rw [Function.update_of_ne hne]
      exact F.done_flag hu (by simp [huv, hout]) hue hp'
  · intro e' he'
    by_cases hne : e' = e
    · subst hne
      refine Or.inr ⟨v, hv, ?_, he⟩
      intro hmem
      exact absurd ((List.pairwise_cons.1 T.sorted).1 v hmem) (lt_irrefl _)
    · rw [Function.update_of_ne hne] at he'
      rcases F.flag_true he' with h | ⟨u, hu, hout, hue⟩
      · exact Or.inl h
      · exact Or.inr ⟨u, hu, fun h => hout (List.mem_cons_of_mem _ h), hue⟩

/-- The tables before and after discovering `w` through the edge `e`. -/
structure Discovers (clock : ℕ) (w : V) (e : Option E) (d d' low low' : V → ℕ)
    (par par' : V → Option E) : Prop where
  fresh : d w = 0
  disc_new : d' w = clock + 1
  low_new : low' w = clock + 1
  par_new : par' w = e
  disc_old : ∀ {u}, u ≠ w → d' u = d u
  low_old : ∀ {u}, u ≠ w → low' u = low u
  par_old : ∀ {u}, u ≠ w → par' u = par u

section Discovers

variable {d' low' : V → ℕ} {par' : V → Option E} {parent : Option E}

/-- Nodes with a clock are not the discovered one. -/
lemma Discovers.ne (D : Discovers clock w parent d d' low low' par par') (hu : base < d u) :
    u ≠ w := by
  rintro rfl
  rw [D.fresh] at hu
  omega

/-- Nodes with an old clock are not the discovered one. -/
lemma Discovers.ne_of_le (D : Discovers clock w parent d d' low low' par par') (hu : d' u ≤ clock) :
    u ≠ w := by
  rintro rfl
  rw [D.disc_new] at hu
  omega

/-- Nodes of the tree keep their clocks. -/
lemma Discovers.disc (D : Discovers clock w parent d d' low low' par par') (hu : base < d u) :
    d' u = d u :=
  D.disc_old (D.ne hu)

section Push

variable (T : Tree adj base clock d par nodes) (D : Discovers clock w parent d d' low low' par par')

include T D

lemma Tree.disc_inj_push (hu : d' u ≠ 0) (huv : d' u = d' v) : u = v := by
  by_cases huw : u = w <;> by_cases hvw : v = w
  · exact huw.trans hvw.symm
  · rw [huw, D.disc_new, D.disc_old hvw] at huv
    exact absurd (T.disc_le v) (by omega)
  · rw [hvw, D.disc_new, D.disc_old huw] at huv
    exact absurd (T.disc_le u) (by omega)
  · rw [D.disc_old huw] at hu
    rw [D.disc_old huw, D.disc_old hvw] at huv
    exact T.disc_inj hu huv

lemma Tree.old_closed_push (hu : d' u ≠ 0) (hub : d' u ≤ base) (hv : (v, e) ∈ adj u) :
    d' v ≠ 0 ∧ d' v ≤ base := by
  rw [D.disc_old (D.ne_of_le (hub.trans T.base_le))] at hu hub
  have hvd := T.old_closed hu hub hv
  have hvw : v ≠ w := by
    rintro rfl
    exact hvd.1 D.fresh
  rw [D.disc_old hvw]
  exact hvd

lemma Tree.sorted_push : (w :: nodes).Pairwise fun a b => d' b < d' a := by
  refine List.pairwise_cons.2 ⟨?_, ?_⟩
  · intro a ha
    rw [D.disc (T.open_base a ha), D.disc_new]
    exact Nat.lt_succ_of_le (T.disc_le a)
  · refine T.sorted.imp_of_mem ?_
    intro a b ha hb hab
    rw [D.disc (T.open_base a ha), D.disc (T.open_base b hb)]
    exact hab

variable (hparent : ∀ e, parent = some e → ∃ v rest, nodes = v :: rest ∧ (v, e) ∈ adj w)

include hparent

lemma Tree.parent_lt_push (hu : base < d' u) (he : par' u = some e) :
    ∃ p, (p, e) ∈ adj u ∧ base < d' p ∧ d' p < d' u := by
  by_cases huw : u = w
  · subst huw
    rw [D.par_new] at he
    rcases hparent e he with ⟨v, rest, rfl, hv⟩
    have hvb := T.open_base v List.mem_cons_self
    refine ⟨v, hv, ?_, ?_⟩ <;> rw [D.disc hvb]
    · exact hvb
    · rw [D.disc_new]
      exact Nat.lt_succ_of_le (T.disc_le v)
  · rw [D.disc_old huw] at hu ⊢
    rw [D.par_old huw] at he
    rcases T.parent_lt hu he with ⟨p, hp, hpb, hlt⟩
    refine ⟨p, hp, ?_, ?_⟩ <;> rw [D.disc hpb]
    · exact hpb
    · exact hlt

lemma Tree.tree_above_push (hadj : EdgeLists adj otherEnd) {a : V} (ha : a ∈ w :: nodes)
    (hau : d' a < d' u) (he : par' u = some e) (hp : (p, e) ∈ adj u) : d' a ≤ d' p := by
  by_cases huw : u = w
  · subst huw
    rw [D.par_new] at he
    rcases hparent e he with ⟨v, rest, rfl, hv⟩
    obtain rfl : p = v := (hadj.otherEnd_eq hp).symm.trans (hadj.otherEnd_eq hv)
    have haw : a ≠ u := by
      rintro rfl
      omega
    rw [D.disc_old haw, D.disc (T.open_base p List.mem_cons_self)]
    exact T.le_top ((List.mem_cons.1 ha).resolve_left haw)
  · rw [D.disc_old huw] at hau
    rw [D.par_old huw] at he
    have haw : a ≠ w := D.ne_of_le (hau.le.trans (T.disc_le u))
    have han := (List.mem_cons.1 ha).resolve_left haw
    rw [D.disc_old haw] at hau ⊢
    have hap := T.tree_above han hau he hp
    rw [D.disc (lt_of_lt_of_le (T.open_base a han) hap)]
    exact hap

variable (hroot : parent = none → nodes = [] ∧ base = clock)

include hroot

lemma Tree.chain_push : (w :: nodes).IsChain fun a b => ∃ e, par' a = some e ∧ (b, e) ∈ adj a := by
  have hchain : nodes.IsChain fun a b => ∃ e, par' a = some e ∧ (b, e) ∈ adj a := by
    refine T.chain.imp_of_mem_imp ?_
    intro a b ha _ hab
    rw [D.par_old (D.ne (T.open_base a ha))]
    exact hab
  cases hp : parent with
  | none =>
      rw [(hroot hp).1]
      exact List.isChain_singleton w
  | some e =>
      rcases hparent e hp with ⟨v, rest, rfl, hv⟩
      exact List.isChain_cons_cons.2 ⟨⟨e, D.par_new.trans hp, hv⟩, hchain⟩

lemma Tree.bottom_push (hu : (w :: nodes).getLast? = some u) : par' u = none := by
  cases hp : parent with
  | none =>
      rw [(hroot hp).1] at hu
      cases hu
      exact D.par_new.trans hp
  | some e =>
      rcases hparent e hp with ⟨v, rest, rfl, hv⟩
      rw [List.getLast?_cons_cons] at hu
      rw [D.par_old (D.ne (T.open_base u (List.mem_of_getLast? hu)))]
      exact T.bottom u hu

/-- Discovering a node puts it on top of the branch: as a root on an empty branch, or below the
edge to the previous top. -/
lemma Tree.push (hadj : EdgeLists adj otherEnd)
    (hdone : ∀ {x y e}, base < d x → x ∉ nodes → (y, e) ∈ adj x → base < d y) :
    Tree adj base (clock + 1) d' par' (w :: nodes) := by
  have hle := T.disc_le
  have hbase := T.base_le
  refine ⟨by omega, ?_, T.disc_inj_push D, T.old_closed_push D, T.sorted_push D, ?_, ?_,
    T.parent_lt_push D hparent, ?_, T.chain_push D hparent hroot,
    fun _ => T.bottom_push D hparent hroot, ?_, T.tree_above_push D hparent hadj⟩
  · intro u
    by_cases hu : u = w
    · subst hu
      exact D.disc_new.le
    · rw [D.disc_old hu]
      exact (hle u).trans (Nat.le_succ _)
  · intro u hu
    rcases List.mem_cons.1 hu with rfl | hu
    · rw [D.disc_new]
      omega
    · rw [D.disc (T.open_base u hu)]
      exact T.open_base u hu
  · intro u hu
    have huw : u ≠ w := D.ne_of_le (by omega)
    rw [D.disc_old huw] at hu
    rw [D.par_old huw]
    exact T.parent_none hu
  · intro u hu he
    by_cases huw : u = w
    · subst huw
      rw [D.par_new] at he
      rw [D.disc_new, (hroot he).2]
    · rw [D.disc_old huw] at hu ⊢
      rw [D.par_old huw] at he
      exact T.root_disc hu he
  · intro x a u e hx hout ha hxa hu
    rw [List.mem_cons, not_or] at hout
    rw [D.disc_old hout.1] at hx hxa
    rw [D.disc (hdone hx hout.2 hu)]
    rcases List.mem_cons.1 ha with rfl | ha
    · rw [D.disc_new]
      exact Nat.lt_succ_of_le (hle u)
    · rw [D.disc (T.open_base a ha)] at hxa ⊢
      exact T.no_cross hx hout.2 ha hxa hu

end Push

lemma LowOk.push (T : Tree adj base clock d par (stack.map Prod.fst))
    (L : LowOk adj base d par low stack) (D : Discovers clock w parent d d' low low' par par') :
    LowOk adj base d' par' low' ((w, 0) :: stack) := by
  have hnode : ∀ {u}, u ∈ stack.map Prod.fst → u ≠ w := fun hu => D.ne (T.open_base _ hu)
  have hseen : ∀ {u x e}, u ≠ w → Seen base d par low u x e → Seen base d' par' low' u x e := by
    rintro u x e hu ⟨hx, hcase⟩
    refine ⟨?_, ?_⟩ <;> rw [D.disc hx]
    · exact hx
    · rw [D.par_old hu, D.low_old hu]
      exact hcase
  constructor
  · intro u hu
    by_cases huw : u = w
    · subst huw
      rw [D.low_new, D.disc_new]
    · rw [D.disc_old huw] at hu ⊢
      rw [D.low_old huw]
      exact L.low_le hu
  · intro u hu
    by_cases huw : u = w
    · subst huw
      exact ⟨u, hu, D.disc_new.trans D.low_new.symm, ReflTransGen.refl⟩
    · rw [D.disc_old huw] at hu
      rcases L.low_witness hu with ⟨x, hx, hxlow, hreach⟩
      refine ⟨x, ?_, ?_, hreach.mono ?_⟩
      · rw [D.disc hx]
        exact hx
      · rw [D.disc hx, D.low_old huw]
        exact hxlow
      · -- the new parent edge is later than `u`
        rintro e ⟨y, hy, hyu, hpar⟩
        rw [D.disc_old huw] at hyu
        have hyw : y ≠ w := D.ne_of_le (hyu.trans (T.disc_le u))
        rw [D.disc_old hyw] at hy hyu
        rw [D.par_old hyw] at hpar
        exact ⟨y, hy, hyu, hpar⟩
  · intro u j x e hu hx
    rcases List.mem_cons.1 hu with hu | hu
    · cases hu
      simp at hx
    · exact hseen (hnode (List.mem_map_of_mem hu)) (L.entries_open hu hx)
  · intro u x e hu hout hx
    rw [List.map_cons, List.mem_cons, not_or] at hout
    rw [D.disc_old hout.1] at hu
    exact hseen hout.1 (L.entries_done hu hout.2 hx)
  · intro u a hu hout ha hau hdeep
    rw [List.map_cons, List.mem_cons, not_or] at hout
    rw [D.disc_old hout.1] at hu hau
    have haw : a ≠ w := D.ne_of_le (hau.le.trans (T.disc_le u))
    have han := (List.mem_cons.1 ha).resolve_left haw
    rw [D.disc_old haw] at hau
    rw [D.low_old haw, D.low_old hout.1]
    refine L.low_done hu hout.2 han hau ?_
    intro b hb hbu
    have := hdeep b (List.mem_cons_of_mem _ hb)
    rw [D.disc_old (hnode hb), D.disc_old hout.1, D.disc_old haw] at this
    exact this hbu

lemma FlagsOk.push (hbase : base ≤ clock) (F : FlagsOk adj base d par bridges nodes)
    (D : Discovers clock w parent d d' low low' par par') :
    FlagsOk adj base d' par' bridges (w :: nodes) := by
  constructor
  · intro u x e hu hub hx
    rw [D.disc_old (D.ne_of_le (hub.trans hbase))] at hu hub
    exact F.old_flag hu hub hx
  · intro u e p hu hout he hp
    rw [List.mem_cons, not_or] at hout
    rw [D.disc_old hout.1] at hu
    rw [D.par_old hout.1] at he
    exact F.done_flag hu hout.2 he hp
  · intro e he
    rcases F.flag_true he with ⟨v, x, hv, hvb, hx⟩ | ⟨v, hv, hout, hpar⟩
    · have hvw : v ≠ w := by
        rintro rfl
        exact hv D.fresh
      exact Or.inl ⟨v, x, by rwa [D.disc_old hvw], by rwa [D.disc_old hvw], hx⟩
    · have hvw := D.ne hv
      exact Or.inr ⟨v, by rwa [D.disc_old hvw], by simp [hvw, hout], by rwa [D.par_old hvw]⟩

end Discovers

end Walks

end LowLink

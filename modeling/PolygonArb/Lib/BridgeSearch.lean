import Mathlib
import PolygonArb.Lib.Loop
import PolygonArb.Lib.LowLink

/-!
# Bridge search with an explicit stack

The iterative search for bridges.  A frame of the stack is a node with the position of its next
entry; `step` is one iteration of the loop, `explore` the search from one root, `run` the search
from every root in turn.

`Inv` is what a step keeps, `potential` what it uses up, and `run_bridges` says that the flags of a
finished search are exactly the bridges.
-/

namespace LowLink

open Loop Relation

variable {V E : Type}

/-- The tables of the search. -/
structure State (V E : Type) where
  discovered : V → ℕ
  low : V → ℕ
  parentEdge : V → Option E
  bridges : E → Bool
  clock : ℕ
  stack : List (V × ℕ)

def State.init : State V E where
  discovered := fun _ => 0
  low := fun _ => 0
  parentEdge := fun _ => none
  bridges := fun _ => false
  clock := 0
  stack := []

namespace State

variable (s : State V E)

/-- Move the top frame past its current entry. -/
def advance (v : V) (i : ℕ) (rest : List (V × ℕ)) : State V E := { s with stack := (v, i + 1) :: rest }

/-- Discover `w` with the next clock value and push its frame. -/
def push [DecidableEq V] (w : V) (e : Option E) (below : List (V × ℕ)) : State V E :=
  { s with
    discovered := Function.update s.discovered w (s.clock + 1)
    low := Function.update s.low w (s.clock + 1)
    parentEdge := Function.update s.parentEdge w e
    clock := s.clock + 1
    stack := (w, 0) :: below }

/-- Lower the top frame to an entry that is discovered already. -/
def back [DecidableEq V] (v : V) (i : ℕ) (rest : List (V × ℕ)) (w : V) : State V E :=
  { s with
    low := Function.update s.low v (min (s.low v) (s.discovered w))
    stack := (v, i + 1) :: rest }

/-- Drop the frame of `v`, classify its parent edge and lower the parent. -/
def pop [DecidableEq V] [DecidableEq E] (v : V) (rest : List (V × ℕ)) (e : E) (parent : V) : State V E :=
  { s with
    bridges := Function.update s.bridges e (decide (s.discovered parent < s.low v))
    low := Function.update s.low parent (min (s.low parent) (s.low v))
    stack := rest }

/-- Drop the frame of a root. -/
def popRoot (rest : List (V × ℕ)) : State V E := { s with stack := rest }

end State

/-- Enough iterations for any search over `nodes`. -/
def stepBudget (adj : V → List (V × E)) (nodes : List V) : ℕ :=
  (nodes.map fun v => (adj v).length + 1).sum

section Loops

variable [DecidableEq V] [DecidableEq E] (adj : V → List (V × E)) (otherEnd : E → V → V)

/-- One iteration over the stack. -/
def step (s : State V E) : LoopStep (State V E) :=
  match s.stack with
  | [] => .break s
  | (v, i) :: rest =>
      match (adj v)[i]? with
      | some (w, e) =>
          if s.parentEdge v = some e then .continue (s.advance v i rest)
          else if s.discovered w = 0 then .continue (s.push w (some e) ((v, i + 1) :: rest))
          else .continue (s.back v i rest w)
      | none =>
          match s.parentEdge v with
          | some e => .continue (s.pop v rest e (otherEnd e v))
          | none => .continue (s.popRoot rest)

/-- The search from one root; discovered and isolated nodes are skipped. -/
def explore (fuel : ℕ) (s : State V E) (root : V) : State V E :=
  if s.discovered root ≠ 0 ∨ adj root = [] then s
  else repeatLoop (step adj otherEnd) fuel (s.push root none [])

def run (nodes : List V) : State V E :=
  nodes.foldl (explore adj otherEnd (stepBudget adj nodes)) State.init

end Loops

structure Inv (adj : V → List (V × E)) (base : ℕ) (s : State V E) : Prop where
  tree : Tree adj base s.clock s.discovered s.parentEdge (s.stack.map Prod.fst)
  low : LowOk adj base s.discovered s.parentEdge s.low s.stack
  flags : FlagsOk adj base s.discovered s.parentEdge s.bridges (s.stack.map Prod.fst)

variable {adj : V → List (V × E)} {otherEnd : E → V → V} {base : ℕ} {s : State V E}
  {v w : V} {e : E} {i : ℕ} {rest : List (V × ℕ)}

lemma discovers_push [DecidableEq V] (s : State V E) (hw : s.discovered w = 0) (parent : Option E)
    (below : List (V × ℕ)) :
    Discovers s.clock w parent s.discovered (s.push w parent below).discovered s.low
      (s.push w parent below).low s.parentEdge (s.push w parent below).parentEdge := by
  constructor
  · exact hw
  · simp [State.push]
  · simp [State.push]
  · simp [State.push]
  all_goals
    intro u hu
    simp [State.push, hu]

/-- Entries of finished nodes lead into the tree. -/
lemma Inv.done_base (I : Inv adj base s) {x y : V} (hx : base < s.discovered x)
    (hout : x ∉ s.stack.map Prod.fst) (hy : (y, e) ∈ adj x) : base < s.discovered y :=
  (I.low.entries_done hx hout hy).1

lemma inv_advance (hadj : EdgeLists adj otherEnd) (I : Inv adj base s)
    (hs : s.stack = (v, i) :: rest) (hget : (adj v)[i]? = some (w, e))
    (hpar : s.parentEdge v = some e) : Inv adj base (s.advance v i rest) := by
  have T := I.tree
  have L := I.low
  have F := I.flags
  rw [hs] at T L F
  have hv := T.open_base v List.mem_cons_self
  have hw : (w, e) ∈ adj v := List.mem_of_getElem? hget
  refine ⟨T, LowOk.advance [] rest L hget ⟨?_, Or.inl hpar⟩, F⟩
  rcases T.parent_lt hv hpar with ⟨p, hp, hpb, -⟩
  rcases hadj.ends hp hw with ⟨-, h⟩ | ⟨h, -⟩
  · exact h ▸ hpb
  · exact absurd h.symm (hadj.ne hp)

lemma inv_push [DecidableEq V] (hadj : EdgeLists adj otherEnd) (I : Inv adj base s)
    (hs : s.stack = (v, i) :: rest) (hget : (adj v)[i]? = some (w, e))
    (hw : s.discovered w = 0) : Inv adj base (s.push w (some e) ((v, i + 1) :: rest)) := by
  have D := discovers_push s hw (some e) ((v, i + 1) :: rest)
  have hdone : ∀ {x y e'}, base < s.discovered x → x ∉ ((v, i) :: rest).map Prod.fst →
      (y, e') ∈ adj x → base < s.discovered y := by
    rw [← hs]
    exact I.done_base
  have T := I.tree
  have L := I.low
  have F := I.flags
  rw [hs] at T L F
  have hmem : (w, e) ∈ adj v := List.mem_of_getElem? hget
  have hv := T.open_base v List.mem_cons_self
  have T' := T.push D (by
    intro e' he'
    cases he'
    exact ⟨v, _, rfl, hadj.symm hmem⟩) (fun h => nomatch h) hadj hdone
  refine ⟨T', LowOk.advance [(w, 0)] rest (L.push T D) hget ⟨?_, Or.inr ?_⟩, F.push T.base_le D⟩
  · rw [D.disc_new]
    exact Nat.lt_succ_of_le T.base_le
  · rw [D.disc_new, D.low_old (D.ne hv)]
    exact (L.low_le hv).trans ((T.disc_le v).trans (Nat.le_succ _))

lemma inv_back [DecidableEq V] (hadj : EdgeLists adj otherEnd) (I : Inv adj base s)
    (hs : s.stack = (v, i) :: rest) (hget : (adj v)[i]? = some (w, e))
    (hpar : s.parentEdge v ≠ some e) (hw : s.discovered w ≠ 0) :
    Inv adj base (s.back v i rest w) := by
  have T := I.tree
  have L := I.low
  have F := I.flags
  rw [hs] at T L F
  have hmem : (w, e) ∈ adj v := List.mem_of_getElem? hget
  have hv := T.open_base v List.mem_cons_self
  -- earlier components have no entry into the tree
  have hwb : base < s.discovered w := by
    by_contra hle
    exact absurd (T.old_closed hw (by omega) (hadj.symm hmem)).2 (by omega)
  have hout : e ∉ treeEdges base s.discovered s.parentEdge v := by
    rintro ⟨y, hy, hyv, hye⟩
    rcases T.parent_lt hy hye with ⟨p, hp, -, hlt⟩
    rcases hadj.ends hmem hp with ⟨rfl, -⟩ | ⟨rfl, rfl⟩
    · exact hpar hye
    · omega
  refine ⟨T, LowOk.advance [] rest (L.lower List.mem_cons_self (min_le_left _ _) ?_) hget
    ⟨hwb, Or.inr ?_⟩, F⟩
  · rcases le_total (s.low v) (s.discovered w) with hle | hle
    · rw [min_eq_left hle]
      exact L.low_witness hv
    · rw [min_eq_right hle]
      exact ⟨w, hwb, rfl, ReflTransGen.single ⟨e, hout, hmem⟩⟩
  · change Function.update s.low v (min (s.low v) (s.discovered w)) v ≤ s.discovered w
    rw [Function.update_self]
    exact min_le_right _ _

lemma inv_popRoot (I : Inv adj base s) (hs : s.stack = (v, i) :: rest) (hend : (adj v)[i]? = none)
    (hpar : s.parentEdge v = none) : Inv adj base (s.popRoot rest) := by
  have T := I.tree
  have L := I.low
  have F := I.flags
  rw [hs] at T L F
  have hlen : (adj v).length ≤ i := List.getElem?_eq_none_iff.1 hend
  have hbelow : ∀ p nodes, rest.map Prod.fst = p :: nodes → s.low p ≤ s.low v := by
    intro p nodes hp
    have hchain := T.chain
    rw [List.map_cons, hp] at hchain
    rcases (List.isChain_cons_cons.1 hchain).1 with ⟨e, he, -⟩
    rw [hpar] at he
    cases he
  exact ⟨T.pop, L.pop T hlen hbelow, F.popRoot hpar⟩

lemma inv_pop [DecidableEq V] [DecidableEq E] (hadj : EdgeLists adj otherEnd) (I : Inv adj base s)
    (hs : s.stack = (v, i) :: rest) (hend : (adj v)[i]? = none) (hpar : s.parentEdge v = some e) :
    Inv adj base (s.pop v rest e (otherEnd e v)) := by
  have T := I.tree
  have L := I.low
  have F := I.flags
  rw [hs] at T L F
  have hlen : (adj v).length ≤ i := List.getElem?_eq_none_iff.1 hend
  have hv := T.open_base v List.mem_cons_self
  rcases T.exists_below hpar with ⟨p, nodes, hnodes, hp⟩
  rw [hadj.otherEnd_eq hp]
  have hpn : p ∈ rest.map Prod.fst := by simp [hnodes]
  have hpv : s.discovered p < s.discovered v := (List.pairwise_cons.1 T.sorted).1 p hpn
  have hpb := T.open_base p (List.mem_cons_of_mem _ hpn)
  have hvp : v ≠ p := (hadj.ne hp).symm
  -- the link of the parent is attained through the parent edge
  have hout : e ∉ treeEdges base s.discovered s.parentEdge p := by
    rintro ⟨y, hy, hyp, hye⟩
    have hyv := T.parent_inj hadj hy hv hye hpar
    subst hyv
    omega
  have hwitness : ∃ x, base < s.discovered x ∧ s.discovered x = min (s.low p) (s.low v) ∧
      Reach adj (treeEdges base s.discovered s.parentEdge p) p x := by
    rcases le_total (s.low p) (s.low v) with hle | hle
    · rw [min_eq_left hle]
      exact L.low_witness hpb
    · rw [min_eq_right hle]
      rcases L.low_witness hv with ⟨x, hx, hxlow, hreach⟩
      refine ⟨x, hx, hxlow, ReflTransGen.head ⟨e, hout, hadj.symm hp⟩ (hreach.mono ?_)⟩
      rintro e' ⟨y, hy, hyp, hye⟩
      exact ⟨y, hy, by omega, hye⟩
  have L' := L.lower (List.mem_cons_of_mem _ hpn) (min_le_left _ (s.low v)) hwitness
  have hflag : decide (s.discovered p < s.low v) = true ↔ ¬ Reach adj {e} v p := by
    rw [decide_eq_true_eq]
    constructor
    · have T' := T
      rw [List.map_cons, hnodes] at T'
      exact not_reach_of_lt_low hadj T' hnodes.symm L hlen hpar
    · intro hnot
      by_contra hle
      exact hnot (reach_of_low_le hadj T L hv hpar hp (by omega))
  have hbelow : ∀ p' nodes', rest.map Prod.fst = p' :: nodes' →
      Function.update s.low p (min (s.low p) (s.low v)) p' ≤
        Function.update s.low p (min (s.low p) (s.low v)) v := by
    intro p' nodes' hp'
    rw [hnodes] at hp'
    cases hp'
    rw [Function.update_self, Function.update_of_ne hvp]
    exact min_le_right _ _
  exact ⟨T.pop, L'.pop T hlen hbelow, F.pop hadj T hpar hp hpb hflag⟩

/-- A search that has emptied its stack leaves an earlier component. -/
lemma Inv.rebase (hadj : EdgeLists adj otherEnd) (I : Inv adj base s) (hs : s.stack = []) :
    Inv adj s.clock s := by
  have T := I.tree
  have hle := T.disc_le
  have hout : ∀ u, u ∉ s.stack.map Prod.fst := by simp [hs]
  have hclosed : ∀ {v x e}, base < s.discovered v → (x, e) ∈ adj v → base < s.discovered x :=
    fun hv hx => (I.low.entries_done hv (hout _) hx).1
  have hfalse : ∀ {v : V}, ¬ s.clock < s.discovered v := fun {v} => not_lt.2 (hle v)
  refine ⟨?_, ?_, ?_⟩
  · refine ⟨le_rfl, hle, T.disc_inj, ?_, T.sorted, fun u hu => absurd hu (hout u), T.parent_none,
      fun hv => absurd hv hfalse, fun hv => absurd hv hfalse, T.chain, T.bottom,
      fun hv => absurd hv hfalse, T.tree_above⟩
    intro v x e hv _ hx
    refine ⟨?_, hle x⟩
    rcases le_or_gt (s.discovered v) base with hvb | hvb
    · exact (T.old_closed hv hvb hx).1
    · exact Nat.ne_of_gt (lt_of_le_of_lt (Nat.zero_le _) (hclosed hvb hx))
  · refine ⟨fun hv => absurd hv hfalse, fun hv => absurd hv hfalse, ?_,
      fun hv => absurd hv hfalse, fun hv => absurd hv hfalse⟩
    intro v i x e hv
    rw [hs] at hv
    cases hv
  · refine ⟨?_, fun hv => absurd hv hfalse, ?_⟩
    · intro v x e hv _ hx
      rcases le_or_gt (s.discovered v) base with hvb | hvb
      · exact I.flags.old_flag hv hvb hx
      · have hxb := hclosed hvb hx
        by_cases htree : ∃ y, base < s.discovered y ∧ s.parentEdge y = some e
        · -- a tree edge was classified when its lower end finished
          rcases htree with ⟨y, hy, hye⟩
          rcases T.parent_lt hy hye with ⟨p, hp, -, -⟩
          have hflag := I.flags.done_flag hy (hout y) hye hp
          rcases hadj.ends hp hx with ⟨rfl, rfl⟩ | ⟨rfl, rfl⟩
          · exact hflag
          · rw [hflag]
            exact not_congr ⟨fun h => h.symm hadj, fun h => h.symm hadj⟩
        · -- any other edge closes a cycle with the tree and is unset
          have hreach : Reach adj {e} v x := by
            have hX : ∀ u, ∀ e' ∈ ({e} : Set E),
                e' ∉ treeEdges base s.discovered s.parentEdge u := by
              rintro u e' rfl ⟨y, hy, -, hye⟩
              exact htree ⟨y, hy, hye⟩
            exact T.reach hadj hvb hxb (hX v) (hX x)
          refine iff_of_false ?_ (fun h => h hreach)
          intro he
          rcases I.flags.flag_true he with ⟨u, y, hu, hub, hy⟩ | ⟨u, hu, -, hue⟩
          · rcases hadj.ends hy hx with ⟨rfl, -⟩ | ⟨rfl, -⟩
            · omega
            · exact absurd (T.old_closed hu hub hy).2 (by omega)
          · exact htree ⟨u, hu, hue⟩
    · intro e he
      rcases I.flags.flag_true he with ⟨u, y, hu, hub, hy⟩ | ⟨u, hu, -, hue⟩
      · exact Or.inl ⟨u, y, hu, hle u, hy⟩
      · rcases T.parent_lt hu hue with ⟨p, hp, -, -⟩
        exact Or.inl ⟨u, p, by omega, hle u, hp⟩

/-- Between two roots: nothing is open, and everything discovered is classified. -/
def Settled (adj : V → List (V × E)) (s : State V E) : Prop := Inv adj s.clock s ∧ s.stack = []

lemma settled_init : Settled adj (State.init : State V E) := by
  refine ⟨⟨?_, ?_, ?_⟩, rfl⟩ <;> constructor <;> simp [State.init]

lemma inv_pushRoot [DecidableEq V] (hadj : EdgeLists adj otherEnd) (h : Settled adj s)
    (hw : s.discovered w = 0) : Inv adj s.clock (s.push w none []) := by
  rcases h with ⟨I, hs⟩
  have D := discovers_push s hw none []
  have T := I.tree
  have L := I.low
  have F := I.flags
  rw [hs] at T L F
  refine ⟨T.push D (fun _ h => nomatch h) (fun _ => ⟨rfl, rfl⟩) hadj ?_, L.push T D,
    F.push le_rfl D⟩
  intro x y e hx
  exact absurd (T.disc_le x) (by omega)

section Runs

variable [DecidableEq V] [DecidableEq E]

lemma inv_step (hadj : EdgeLists adj otherEnd) (I : Inv adj base s) :
    Inv adj base (step adj otherEnd s).state := by
  rw [step]
  split
  · exact I
  · rename_i v i rest hs
    split
    · rename_i w e hget
      split_ifs with hpar hw
      · exact inv_advance hadj I hs hget hpar
      · exact inv_push hadj I hs hget hw
      · exact inv_back hadj I hs hget hpar hw
    · rename_i hend
      split
      · rename_i e hpar
        exact inv_pop hadj I hs hend hpar
      · rename_i hpar
        exact inv_popRoot I hs hend hpar

/-- Entries left on the stack and nodes left to discover. -/
def potential (adj : V → List (V × E)) (nodes : List V) (s : State V E) : ℕ :=
  (nodes.map fun v => if s.discovered v = 0 then (adj v).length + 1 else 0).sum
    + (s.stack.map fun f => (adj f.1).length - f.2 + 1).sum

/-- Discovering a node takes its share out of the undiscovered ones. -/
lemma sum_update {d : V → ℕ} {c : ℕ} {g : V → ℕ} (hc : c ≠ 0) (hw : d w = 0) :
    ∀ {nodes : List V}, nodes.Nodup → w ∈ nodes →
      (nodes.map fun v => if Function.update d w c v = 0 then g v else 0).sum + g w =
        (nodes.map fun v => if d v = 0 then g v else 0).sum := by
  intro nodes
  induction nodes with
  | nil => simp
  | cons u nodes ih =>
      intro hnodup hmem
      rw [List.nodup_cons] at hnodup
      by_cases huw : u = w
      · subst huw
        have hrest : ∀ v ∈ nodes, Function.update d u c v = d v := by
          intro v hv
          refine Function.update_of_ne ?_ _ _
          rintro rfl
          exact hnodup.1 hv
        have hsum : (nodes.map fun v => if Function.update d u c v = 0 then g v else 0) =
            nodes.map fun v => if d v = 0 then g v else 0 :=
          List.map_congr_left fun v hv => by rw [hrest v hv]
        simp [hsum, hc, hw]
        omega
      · have := ih hnodup.2 ((List.mem_cons.1 hmem).resolve_left (Ne.symm huw))
        simp [huw]
        omega

omit [DecidableEq E] in
lemma potential_push {nodes : List V} (hnodup : nodes.Nodup) (hmem : w ∈ nodes)
    (hw : s.discovered w = 0) (parent : Option E) (below : List (V × ℕ)) :
    potential adj nodes (s.push w parent below) =
      potential adj nodes { s with stack := below } := by
  have := sum_update (c := s.clock + 1) (g := fun v => (adj v).length + 1) (by omega) hw hnodup hmem
  beta_reduce at this
  simp only [potential, State.push, List.map_cons, List.sum_cons, Nat.sub_zero]
  rw [← this]
  exact (Nat.add_assoc _ _ _).symm

lemma potential_step (otherEnd : E → V → V) {nodes : List V} (hnodup : nodes.Nodup)
    (hnodes : ∀ v, ∀ q ∈ adj v, q.1 ∈ nodes) (hne : s.stack ≠ []) :
    ∃ s', step adj otherEnd s = .continue s' ∧
      potential adj nodes s' < potential adj nodes s := by
  rw [step]
  split
  · rename_i hs
    exact absurd hs hne
  · rename_i v i rest hs
    split
    · rename_i w e hget
      have hlt : i < (adj v).length := (List.getElem?_eq_some_iff.1 hget).1
      have hadv : potential adj nodes { s with stack := (v, i + 1) :: rest } <
          potential adj nodes s := by
        simp only [potential, hs, List.map_cons, List.sum_cons]
        omega
      split_ifs with hpar hw
      · exact ⟨_, rfl, hadv⟩
      · refine ⟨_, rfl, ?_⟩
        rw [potential_push hnodup (hnodes v _ (List.mem_of_getElem? hget)) hw]
        exact hadv
      · exact ⟨_, rfl, hadv⟩
    · have hpop : potential adj nodes { s with stack := rest } < potential adj nodes s := by
        simp only [potential, hs, List.map_cons, List.sum_cons]
        omega
      split
      · exact ⟨_, rfl, hpop⟩
      · exact ⟨_, rfl, hpop⟩

/-- With enough iterations the stack empties. -/
lemma stack_repeatLoop (otherEnd : E → V → V) {nodes : List V} (hnodup : nodes.Nodup)
    (hnodes : ∀ v, ∀ q ∈ adj v, q.1 ∈ nodes) :
    ∀ (fuel : ℕ) (s : State V E), potential adj nodes s ≤ fuel →
      (repeatLoop (step adj otherEnd) fuel s).stack = [] := by
  intro fuel
  induction fuel with
  | zero =>
      intro s hle
      rw [repeatLoop_zero]
      cases hs : s.stack with
      | nil => rfl
      | cons f rest =>
          simp [potential, hs] at hle
  | succ fuel ih =>
      intro s hle
      by_cases hs : s.stack = []
      · have hbreak : step adj otherEnd s = .break s := by
          rw [step, hs]
        rw [repeatLoop_of_break hbreak]
        exact hs
      · rcases potential_step otherEnd hnodup hnodes hs with ⟨s', hstep, hlt⟩
        rw [repeatLoop_of_continue hstep]
        exact ih s' (by omega)

lemma settled_explore (hadj : EdgeLists adj otherEnd) {nodes : List V} (hnodup : nodes.Nodup)
    (hnodes : ∀ v, ∀ q ∈ adj v, q.1 ∈ nodes) {root : V} (hroot : root ∈ nodes)
    (h : Settled adj s) : Settled adj (explore adj otherEnd (stepBudget adj nodes) s root) := by
  rw [explore]
  split_ifs with hskip
  · exact h
  · have hw : s.discovered root = 0 := by
      by_contra hd
      exact hskip (Or.inl hd)
    have hfuel : potential adj nodes (s.push root none []) ≤ stepBudget adj nodes := by
      rw [potential_push hnodup hroot hw, potential, stepBudget]
      simp only [List.map_nil, List.sum_nil, Nat.add_zero]
      refine List.sum_le_sum fun v _ => ?_
      split_ifs <;> omega
    have hstack := stack_repeatLoop otherEnd hnodup hnodes _ _ hfuel
    have hinv := repeatLoop_inv (Inv adj s.clock) (fun s hI => inv_step hadj hI)
      (stepBudget adj nodes) _ (inv_pushRoot hadj h hw)
    exact ⟨hinv.rebase hadj hstack, hstack⟩

/-- Exploring never forgets a node, and leaves its root discovered. -/
lemma discovered_explore (fuel : ℕ) (s : State V E) {root : V} (hu : s.discovered v ≠ 0 ∨ v = root)
    (hv : adj v ≠ []) : (explore adj otherEnd fuel s root).discovered v ≠ 0 := by
  have hstep : ∀ s : State V E, s.discovered v ≠ 0 →
      (step adj otherEnd s).state.discovered v ≠ 0 := by
    intro s hs
    rw [step]
    split
    · exact hs
    · split
      · rename_i w e _
        split_ifs with hpar hw
        · exact hs
        · by_cases hvw : v = w
          · subst hvw
            exact absurd hw hs
          · simpa [State.push, hvw] using hs
        · exact hs
      · split
        · exact hs
        · exact hs
  rw [explore]
  split_ifs with hskip
  · rcases hu with hu | rfl
    · exact hu
    · exact hskip.resolve_right hv
  · refine repeatLoop_inv (fun s : State V E => s.discovered v ≠ 0) hstep fuel _ ?_
    by_cases hvr : v = root
    · subst hvr
      simp [State.push]
    · simpa [State.push, hvr] using hu.resolve_right hvr

/-- The flags of a finished search are exactly the bridges. -/
theorem run_bridges (hadj : EdgeLists adj otherEnd) {nodes : List V} (hnodup : nodes.Nodup)
    (hnodes : ∀ v, ∀ q ∈ adj v, q.1 ∈ nodes) {x : V} (hx : (x, e) ∈ adj v) :
    (run adj otherEnd nodes).bridges e = true ↔ ¬ Reach adj {e} v x := by
  have hv : v ∈ nodes := hnodes x _ (hadj.symm hx)
  have hne : adj v ≠ [] := List.ne_nil_of_mem hx
  -- what holds after a part of the roots
  have hrun : ∀ (roots : List V) (s : State V E), roots ⊆ nodes → Settled adj s →
      (s.discovered v ≠ 0 ∨ v ∈ roots) →
      Settled adj (roots.foldl (explore adj otherEnd (stepBudget adj nodes)) s) ∧
        (roots.foldl (explore adj otherEnd (stepBudget adj nodes)) s).discovered v ≠ 0 := by
    intro roots
    induction roots with
    | nil =>
        intro s _ h hd
        exact ⟨h, hd.resolve_right List.not_mem_nil⟩
    | cons root roots ih =>
        intro s hsub h hd
        rw [List.foldl_cons]
        refine ih _ (fun u hu => hsub (List.mem_cons_of_mem _ hu))
          (settled_explore hadj hnodup hnodes (hsub List.mem_cons_self) h) ?_
        rcases hd with hd | hd
        · exact Or.inl (discovered_explore _ s (Or.inl hd) hne)
        · rcases List.mem_cons.1 hd with rfl | hd
          · exact Or.inl (discovered_explore _ s (Or.inr rfl) hne)
          · exact Or.inr hd
  rcases hrun nodes State.init (List.Subset.refl _) settled_init (Or.inr hv) with ⟨h, hd⟩
  exact h.1.flags.old_flag hd (h.1.tree.disc_le v) hx

end Runs

end LowLink

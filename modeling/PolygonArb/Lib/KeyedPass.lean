import Mathlib.Data.List.Nodup

/-!
# Passes that touch one key at a time

A pass folds a step over a list of items, each with a key of its own.  A step leaves what is observed at
every other key alone (`frame`), and what it does at its own key is a relation between the observations
before and after (`own`).  Then that relation holds, of every item, between the start of the pass and
its end (`foldl_mem`): neither the order of the items nor what the others did shows.

Steps may be confined to good states in two ways: a state that is `Good` stays so, and a state that is
`Open` was open before.  A pass that ends open was open all along.
-/

namespace PolygonArb

namespace KeyedPass

variable {σ ι κ τ : Type*}

/-- What a step does, seen through the observations. -/
structure KeyedStep (step : σ → ι → σ) (key : ι → κ) (observe : σ → κ → τ)
    (effect : ι → τ → τ → Prop) (Good Open : σ → Prop) (item : ι) : Prop where
  keeps : ∀ s, Good s → Good (step s item)
  wasOpen : ∀ s, Open (step s item) → Open s
  own : ∀ s, Good s → Open s → effect item (observe s (key item)) (observe (step s item) (key item))
  frame : ∀ s k, Good s → k ≠ key item → observe (step s item) k = observe s k

section Fold

variable {step : σ → ι → σ} {key : ι → κ} {observe : σ → κ → τ} {effect : ι → τ → τ → Prop}
  {Good Open : σ → Prop} {items : List ι} {s : σ}

lemma foldl_good (h : ∀ item ∈ items, KeyedStep step key observe effect Good Open item) (hs : Good s) :
    Good (items.foldl step s) := by
  induction items generalizing s with
  | nil => exact hs
  | cons item items ih =>
      exact ih (fun i hi => h i (List.mem_cons_of_mem _ hi)) ((h item List.mem_cons_self).keeps s hs)

lemma open_of_foldl (h : ∀ item ∈ items, KeyedStep step key observe effect Good Open item)
    (hopen : Open (items.foldl step s)) : Open s := by
  induction items generalizing s with
  | nil => exact hopen
  | cons item items ih =>
      have htail := ih (fun i hi => h i (List.mem_cons_of_mem _ hi)) hopen
      exact (h item List.mem_cons_self).wasOpen s htail

/-- A key without an item is left alone. -/
lemma foldl_notMem (h : ∀ item ∈ items, KeyedStep step key observe effect Good Open item)
    (hs : Good s) {k : κ} (hk : k ∉ items.map key) : observe (items.foldl step s) k = observe s k := by
  induction items generalizing s with
  | nil => rfl
  | cons item items ih =>
      rw [List.map_cons, List.mem_cons, not_or] at hk
      have hhead := h item List.mem_cons_self
      rw [List.foldl_cons, ih (fun i hi => h i (List.mem_cons_of_mem _ hi)) (hhead.keeps s hs) hk.2]
      exact hhead.frame s k hs hk.1

/-- Every item has its effect, as if it had been alone. -/
theorem foldl_mem (h : ∀ item ∈ items, KeyedStep step key observe effect Good Open item)
    (hdistinct : (items.map key).Nodup) (hs : Good s) (hopen : Open (items.foldl step s)) {item : ι}
    (hitem : item ∈ items) :
    effect item (observe s (key item)) (observe (items.foldl step s) (key item)) := by
  induction items generalizing s with
  | nil => cases hitem
  | cons head items ih =>
      rw [List.map_cons, List.nodup_cons] at hdistinct
      have hhead := h head List.mem_cons_self
      have hrest := fun i hi => h i (List.mem_cons_of_mem head hi)
      have hnext : Good (step s head) := hhead.keeps s hs
      rw [List.foldl_cons] at hopen ⊢
      rcases List.mem_cons.mp hitem with rfl | htail
      · rw [foldl_notMem hrest hnext hdistinct.1]
        exact hhead.own s hs (hhead.wasOpen s (open_of_foldl hrest hopen))
      · have hne : key item ≠ key head := by
          intro heq
          exact hdistinct.1 (heq ▸ List.mem_map_of_mem htail)
        have := ih hrest hdistinct.2 hnext hopen htail
        rw [hhead.frame s _ hs hne] at this
        exact this

end Fold

end KeyedPass

end PolygonArb

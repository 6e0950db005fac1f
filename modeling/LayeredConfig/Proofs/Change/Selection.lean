import LayeredConfig.Proofs.Change.Routing
import Mathlib.Data.List.Basic
import Mathlib.Data.List.Nodup

/-!
Selection. What a policy selects is told by the places that belong to it and by their order, and
this leaves one answer: all accepting places from first to last, or the first one, or those with a
matching name, or none; or what a routing function says, less the places that do not accept and all
repetitions.
-/

namespace LayeredConfig.Policy

variable {targets : List Target} {change : Mutation}

def Accepts (targets : List Target) (change : Mutation) (i : Nat) : Prop :=
  ∃ t, targets[i]? = some t ∧ t.accepts change = true

/-- The places that a policy has to select, in their order. A routing function says in which order
it names them first. -/
def Selects (change : Mutation) (targets : List Target) : Policy → List Nat → Prop
  | .mostSignificant, places =>
      (∃ i, places = [i] ∧ Accepts targets change i ∧ ∀ j < i, ¬ Accepts targets change j) ∨
        places = [] ∧ ∀ i, ¬ Accepts targets change i
  | .all, places => places.Pairwise (· < ·) ∧ ∀ i, i ∈ places ↔ Accepts targets change i
  | .none, places => places = []
  | .selective names, places => places.Pairwise (· < ·) ∧ ∀ i, i ∈ places ↔
      ∃ t, targets[i]? = some t ∧ t.accepts change = true ∧ names.accepts t.name = true
  | .custom _ route, places =>
      let named := route change targets
      places.Pairwise (fun i j => named.idxOf i < named.idxOf j) ∧
        ∀ i, i ∈ places ↔ i ∈ named ∧ Accepts targets change i

theorem passes_iff {test : Target → Bool} {i : Nat} :
    passes targets test i = true ↔ ∃ t, targets[i]? = some t ∧ test t = true := by
  rw [passes, Option.any_eq_true]

theorem pairwise_indices (targets : List Target) (test : Target → Bool) :
    (indices targets test).Pairwise (· < ·) := List.pairwise_lt_range.filter _

theorem mem_indices {test : Target → Bool} {i : Nat} :
    i ∈ indices targets test ↔ ∃ t, targets[i]? = some t ∧ test t = true := by
  rw [indices, List.mem_filter, List.mem_range, passes_iff, and_iff_right_iff_imp]
  rintro ⟨t, ht, -⟩
  exact (List.getElem?_eq_some_iff.1 ht).1

theorem first_of_pairwise {P : Nat → Prop} {places : List Nat} (horder : places.Pairwise (· < ·))
    (hmem : ∀ i, i ∈ places ↔ P i) :
    (∃ i, places.take 1 = [i] ∧ P i ∧ ∀ j < i, ¬ P j) ∨ places.take 1 = [] ∧ ∀ i, ¬ P i := by
  cases places with
  | nil => exact .inr ⟨rfl, fun i hi => List.not_mem_nil ((hmem i).2 hi)⟩
  | cons i places =>
      refine .inl ⟨i, rfl, (hmem i).1 List.mem_cons_self, ?_⟩
      intro j hji hj
      rcases List.mem_cons.1 ((hmem j).2 hj) with rfl | hlater
      · exact Nat.lt_irrefl _ hji
      · exact Nat.lt_asymm hji ((List.pairwise_cons.1 horder).1 j hlater)

theorem pairwise_idxOf_cons {places named : List Nat} {j : Nat} (hj : j ∉ places)
    (h : places.Pairwise fun i k => named.idxOf i < named.idxOf k) :
    places.Pairwise fun i k => (j :: named).idxOf i < (j :: named).idxOf k := by
  refine h.imp_of_mem ?_
  intro i k hi hk hlt
  have hji : j ≠ i := fun heq => hj (heq ▸ hi)
  have hjk : j ≠ k := fun heq => hj (heq ▸ hk)
  rw [List.idxOf_cons_ne _ hji, List.idxOf_cons_ne _ hjk]
  exact Nat.succ_lt_succ hlt

theorem pairwise_restrict (targets : List Target) (change : Mutation) (seen named : List Nat) :
    (restrict targets change seen named).Pairwise
      fun i j => named.idxOf i < named.idxOf j := by
  induction named generalizing seen with
  | nil => exact .nil
  | cons j named ih =>
      rw [restrict]
      split
      · have hj : j ∉ restrict targets change (j :: seen) named :=
          fun hmem => (mem_restrict.1 hmem).2.2 List.mem_cons_self
        refine List.pairwise_cons.2 ⟨?_, pairwise_idxOf_cons hj (ih (j :: seen))⟩
        intro i hi
        have hji : j ≠ i := fun heq => hj (heq ▸ hi)
        rw [List.idxOf_cons_self, List.idxOf_cons_ne _ hji]
        exact Nat.succ_pos _
      · rename_i hdropped
        refine pairwise_idxOf_cons ?_ (ih seen)
        intro hj
        obtain ⟨-, hpasses, hunseen⟩ := mem_restrict.1 hj
        exact hdropped (by simp [hpasses, hunseen])

theorem eq_of_pairwise {r : Nat → Nat → Prop} (hasymm : ∀ i j, r i j → ¬ r j i)
    {places places' : List Nat} (h : places.Pairwise r) (h' : places'.Pairwise r)
    (hmem : ∀ i, i ∈ places ↔ i ∈ places') : places = places' := by
  have hirrefl : ∀ i j, r i j → i ≠ j := by
    rintro i _ hi rfl
    exact hasymm i i hi hi
  have hperm : places.Perm places' :=
    (List.perm_ext_iff_of_nodup (h.imp (hirrefl _ _)) (h'.imp (hirrefl _ _))).2 hmem
  exact hperm.eq_of_pairwise (fun i j _ _ hij hji => absurd hji (hasymm i j hij)) h h'

theorem Selects.unique {policy : Policy} {places places' : List Nat}
    (h : policy.Selects change targets places) (h' : policy.Selects change targets places') :
    places = places' := by
  cases policy with
  | mostSignificant =>
      rcases h with ⟨i, rfl, hi, hbefore⟩ | ⟨rfl, hnone⟩
      · rcases h' with ⟨j, rfl, hj, hbefore'⟩ | ⟨rfl, hnone⟩
        · have hij : ¬ i < j := fun hlt => hbefore' i hlt hi
          have hji : ¬ j < i := fun hlt => hbefore j hlt hj
          rw [Nat.le_antisymm (Nat.not_lt.1 hji) (Nat.not_lt.1 hij)]
        · exact absurd hi (hnone i)
      · rcases h' with ⟨j, rfl, hj, -⟩ | ⟨rfl, -⟩
        · exact absurd hj (hnone j)
        · rfl
  | all => exact eq_of_pairwise (fun _ _ => Nat.lt_asymm) h.1 h'.1 fun i => (h.2 i).trans (h'.2 i).symm
  | none => exact h.trans h'.symm
  | selective names =>
      exact eq_of_pairwise (fun _ _ => Nat.lt_asymm) h.1 h'.1 fun i => (h.2 i).trans (h'.2 i).symm
  | custom tag route =>
      exact eq_of_pairwise (fun _ _ => Nat.lt_asymm) h.1 h'.1 fun i => (h.2 i).trans (h'.2 i).symm

theorem selects_select (policy : Policy) (change : Mutation) (targets : List Target) :
    policy.Selects change targets (policy.select change targets) := by
  have horder := pairwise_indices targets (·.accepts change)
  cases policy with
  | mostSignificant => exact first_of_pairwise horder fun i => mem_indices
  | all => exact ⟨horder, fun i => mem_indices⟩
  | none => rfl
  | selective names =>
      refine ⟨horder.filter _, fun i => ?_⟩
      rw [select, List.mem_filter, mem_indices, passes_iff]
      constructor
      · rintro ⟨⟨t, ht, haccepts⟩, t', ht', hname⟩
        obtain rfl : t = t' := Option.some.inj (ht.symm.trans ht')
        exact ⟨t, ht, haccepts, hname⟩
      · rintro ⟨t, ht, haccepts, hname⟩
        exact ⟨⟨t, ht, haccepts⟩, t, ht, hname⟩
  | custom tag route =>
      refine ⟨pairwise_restrict targets change [] _, fun i => ?_⟩
      rw [select, mem_restrict, passes_iff, and_iff_left (List.not_mem_nil (a := i))]
      rfl

/-- Whatever the policy, it selects places of targets that accept the change, and none twice; and it
selects just the places, in just the order, that it has to. -/
theorem select_eq_iff (policy : Policy) (change : Mutation) (targets : List Target) :
    (policy.select change targets).Nodup ∧
    (∀ i ∈ policy.select change targets, i < targets.length ∧ Accepts targets change i) ∧
    ∀ places, policy.select change targets = places ↔ policy.Selects change targets places := by
  refine ⟨policy.nodup_select change targets, ?_, ?_⟩
  · intro i hi
    obtain ⟨t, ht, haccepts⟩ := passes_iff.1 (passes_of_mem_select hi)
    exact ⟨(List.getElem?_eq_some_iff.1 ht).1, t, ht, haccepts⟩
  · intro places
    constructor
    · rintro rfl
      exact policy.selects_select change targets
    · exact (policy.selects_select change targets).unique

end LayeredConfig.Policy

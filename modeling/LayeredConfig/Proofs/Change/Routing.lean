import LayeredConfig.Change.Policy

/-!
Routing. Whatever a policy says, a change goes to targets that accept it, and to none of them twice.
Changes are routed one after another, so the target with an index gets those that are routed to it
in their order.
-/

namespace LayeredConfig

namespace Policy

theorem passes_of_mem_indices {targets : List Target} {test : Target → Bool} {i : Nat}
    (h : i ∈ indices targets test) : passes targets test i = true := (List.mem_filter.1 h).2

theorem nodup_indices (targets : List Target) (test : Target → Bool) :
    (indices targets test).Nodup := List.nodup_range.filter _

theorem mem_restrict {targets : List Target} {change : Mutation} {seen l : List Nat} {i : Nat} :
    i ∈ restrict targets change seen l ↔
      i ∈ l ∧ passes targets (·.accepts change) i = true ∧ i ∉ seen := by
  induction l generalizing seen with
  | nil => simp [restrict]
  | cons j l ih =>
      rw [restrict]
      split
      · rename_i hj
        rw [Bool.and_eq_true, Bool.not_eq_true', List.contains_eq_mem,
          decide_eq_false_iff_not] at hj
        rw [List.mem_cons, List.mem_cons, ih, List.mem_cons]
        by_cases hij : i = j
        · subst hij
          simp [hj]
        · simp [hij]
      · rename_i hj
        rw [Bool.and_eq_true, Bool.not_eq_true', List.contains_eq_mem,
          decide_eq_false_iff_not] at hj
        rw [ih, List.mem_cons, or_and_right, or_iff_right]
        rintro ⟨rfl, hi⟩
        exact hj hi

theorem nodup_restrict (targets : List Target) (change : Mutation) (seen l : List Nat) :
    (restrict targets change seen l).Nodup := by
  induction l generalizing seen with
  | nil => exact List.nodup_nil
  | cons j l ih =>
      rw [restrict]
      split
      · refine List.nodup_cons.2 ⟨fun hj => ?_, ih (j :: seen)⟩
        exact (mem_restrict.1 hj).2.2 List.mem_cons_self
      · exact ih seen

theorem nodup_select (policy : Policy) (change : Mutation) (targets : List Target) :
    (policy.select change targets).Nodup := by
  have hindices := nodup_indices targets (·.accepts change)
  cases policy with
  | mostSignificant => exact (List.take_sublist 1 _).nodup hindices
  | all => exact hindices
  | none => exact List.nodup_nil
  | selective names => exact hindices.filter _
  | custom tag route => exact nodup_restrict targets change [] _

theorem passes_of_mem_select {policy : Policy} {change : Mutation} {targets : List Target} {i : Nat}
    (h : i ∈ policy.select change targets) : passes targets (·.accepts change) i = true := by
  cases policy with
  | mostSignificant => exact passes_of_mem_indices (List.mem_of_mem_take h)
  | all => exact passes_of_mem_indices h
  | none => cases h
  | selective names => exact passes_of_mem_indices (List.mem_filter.1 h).1
  | custom tag route => exact (mem_restrict.1 h).2.1

def routes (policy : Policy) (targets : List Target) (changes : List Mutation) :
    List (Nat × Mutation) :=
  changes.flatMap fun change => (policy.select change targets).map (·, change)

def selected (policy : Policy) (targets : List Target) (changes : List Mutation) (i : Nat) :
    List Mutation :=
  changes.filter fun change => (policy.select change targets).contains i

end Policy

def changesAt (i : Nat) (routes : List (Nat × Mutation)) : List Mutation :=
  (routes.filter (·.1 = i)).map (·.2)

theorem changesAt_cons (i : Nat) (route : Nat × Mutation) (routes : List (Nat × Mutation)) :
    changesAt i (route :: routes) =
      if route.1 = i then route.2 :: changesAt i routes else changesAt i routes := by
  by_cases h : route.1 = i
  · simp [changesAt, h]
  · simp [changesAt, h]

theorem changesAt_append (i : Nat) (front back : List (Nat × Mutation)) :
    changesAt i (front ++ back) = changesAt i front ++ changesAt i back := by
  simp [changesAt]

/-- One change goes to an index once, or not at all. -/
theorem changesAt_select {l : List Nat} (h : l.Nodup) (change : Mutation) (i : Nat) :
    changesAt i (l.map (·, change)) = if l.contains i then [change] else [] := by
  induction l with
  | nil => rfl
  | cons j l ih =>
      obtain ⟨hj, hl⟩ := List.nodup_cons.1 h
      rw [List.map_cons, changesAt_cons, ih hl]
      by_cases hji : j = i
      · subst hji
        simp [hj]
      · simp [hji, Ne.symm hji]

theorem Policy.changesAt_routes (policy : Policy) (targets : List Target)
    (changes : List Mutation) (i : Nat) :
    changesAt i (policy.routes targets changes) = policy.selected targets changes i := by
  induction changes with
  | nil => rfl
  | cons change changes ih =>
      change changesAt i (_ ++ policy.routes targets changes) = _
      rw [changesAt_append, ih, changesAt_select (policy.nodup_select change targets), selected,
        selected, List.filter_cons]
      split
      · rfl
      · rfl

end LayeredConfig

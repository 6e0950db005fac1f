import LayeredConfig.Proofs.Lookup.Steady

/-!
Runs of calls on an object that answers in a state outside it. Between two calls of a run anything
may happen to that state: each call finds some state, not the one that the call before it left.
-/

namespace LayeredConfig

variable {ω κ σ : Type}

/-- A call on an object: what it found, what it answered, and what it left. -/
structure Step (ω κ σ : Type) where
  object : ω
  found : σ
  call : κ
  result : Except ConfigError Unit
  next : ω
  left : σ

def Step.succeeds (step : Step ω κ σ) : Bool := step.result.isOk

theorem Step.succeeds_iff {step : Step ω κ σ} : step.succeeds = true ↔ step.result = .ok () := by
  rw [succeeds]
  cases step.result with
  | error e => exact ⟨nofun, nofun⟩
  | ok u => exact ⟨fun _ => rfl, fun _ => rfl⟩

/-- The steps of a run of calls, the latest one last, and the object that the run ends with. -/
inductive Run (perform : ω → κ → StateM σ (Except ConfigError Unit × ω)) (start : ω) :
    List (Step ω κ σ) → ω → Prop
  | nil : Run perform start [] start
  | snoc {steps object found call result next left} : Run perform start steps object →
      (perform object call).run found = ((result, next), left) →
      Run perform start (steps ++ [⟨object, found, call, result, next, left⟩]) next

namespace Run

variable {perform : ω → κ → StateM σ (Except ConfigError Unit × ω)} {start object : ω}
  {steps : List (Step ω κ σ)}

/-- What holds at the start and is kept by every call holds at the end of a run. -/
theorem invariant {I : ω → Prop} (h : Run perform start steps object) (hstart : I start)
    (hkept : ∀ object call found result next left, I object →
      (perform object call).run found = ((result, next), left) → I next) : I object := by
  induction h with
  | nil => exact hstart
  | snoc _ hstep ih => exact hkept _ _ _ _ _ _ ih hstep

/-- Each step of a run is a call on an object that an earlier part of the run ends with. -/
theorem step_of_mem (h : Run perform start steps object) : ∀ step ∈ steps,
    (∃ earlier, Run perform start earlier step.object) ∧
      (perform step.object step.call).run step.found = ((step.result, step.next), step.left) := by
  induction h with
  | nil => exact nofun
  | @snoc steps object found call result next left hrun hstep ih =>
      intro step hmem
      rcases List.mem_append.1 hmem with hmem | hmem
      · exact ih step hmem
      · obtain rfl := List.mem_singleton.1 hmem
        exact ⟨⟨steps, hrun⟩, hstep⟩

end Run

/-- One of some steps is so, and all after it are spared. -/
def Since {α : Type} (P Spared : α → Prop) (steps : List α) : Prop :=
  ∃ earlier step later, steps = earlier ++ step :: later ∧ P step ∧ ∀ next ∈ later, Spared next

theorem not_since_nil {α : Type} {P Spared : α → Prop} : ¬ Since P Spared [] := by
  rintro ⟨earlier, step, later, hsteps, -⟩
  exact List.append_ne_nil_of_right_ne_nil earlier (List.cons_ne_nil step later) hsteps.symm

theorem since_concat {α : Type} {P Spared : α → Prop} {steps : List α} {last : α} :
    Since P Spared (steps ++ [last]) ↔ P last ∨ Spared last ∧ Since P Spared steps := by
  constructor
  · rintro ⟨earlier, step, later, hsteps, hstep, hlater⟩
    obtain rfl | ⟨between, last', rfl⟩ := later.eq_nil_or_concat
    · obtain ⟨-, hlast⟩ := List.append_inj' hsteps rfl
      cases hlast
      exact .inl hstep
    · rw [List.concat_eq_append] at hsteps hlater
      rw [← List.cons_append, ← List.append_assoc] at hsteps
      obtain ⟨hbefore, hsame⟩ := List.append_inj' hsteps rfl
      cases hsame
      obtain ⟨hbetween, hlast⟩ := List.forall_mem_append.1 hlater
      have hspared : Spared last := hlast last (List.mem_singleton.2 rfl)
      exact .inr ⟨hspared, earlier, step, between, hbefore, hstep, hbetween⟩
  · rintro (hlast | ⟨hlast, earlier, step, later, hsteps, hstep, hlater⟩)
    · exact ⟨steps, last, [], rfl, hlast, nofun⟩
    · refine ⟨earlier, step, later ++ [last], ?_, hstep, ?_⟩
      · rw [hsteps, List.append_assoc, List.cons_append]
      · exact List.forall_mem_append.2 ⟨hlater, List.forall_mem_singleton.2 hlast⟩

/-- Calls one after another, each in the state that the one before it left: their steps, and what
is there at the end. -/
def performAll (perform : ω → κ → StateM σ (Except ConfigError Unit × ω)) (object : ω) (found : σ) :
    List κ → List (Step ω κ σ) × ω × σ
  | [] => ([], object, found)
  | call :: calls =>
    let answer := (perform object call).run found
    let later := performAll perform answer.1.2 answer.2 calls
    (⟨object, found, call, answer.1.1, answer.1.2, answer.2⟩ :: later.1, later.2)

theorem performAll_induction (perform : ω → κ → StateM σ (Except ConfigError Unit × ω))
    {P : List (Step ω κ σ) → ω → σ → Prop}
    (hsnoc : ∀ steps object found call result next left, P steps object found →
      (perform object call).run found = ((result, next), left) →
      P (steps ++ [⟨object, found, call, result, next, left⟩]) next left)
    {object : ω} {found : σ} (calls : List κ) (hstart : P [] object found) :
    P (performAll perform object found calls).1 (performAll perform object found calls).2.1
      (performAll perform object found calls).2.2 := by
  suffices hlater : ∀ steps, P steps object found →
      P (steps ++ (performAll perform object found calls).1)
        (performAll perform object found calls).2.1 (performAll perform object found calls).2.2
    from hlater [] hstart
  clear hstart
  induction calls generalizing object found with
  | nil =>
      intro steps h
      rw [performAll, List.append_nil]
      exact h
  | cons call calls ih =>
      intro steps h
      have hstep := ih _ (hsnoc steps object found call _ _ _ h rfl)
      rw [List.append_assoc] at hstep
      exact hstep

theorem run_performAll (perform : ω → κ → StateM σ (Except ConfigError Unit × ω)) (object : ω)
    (found : σ) (calls : List κ) :
    Run perform object (performAll perform object found calls).1
      (performAll perform object found calls).2.1 :=
  performAll_induction (P := fun steps next _ => Run perform object steps next) perform
    (fun _ _ _ _ _ _ _ h hstep => h.snoc hstep) calls .nil

/-- Calls one after another, each in a state that is given for it: their steps, and the object at
the end. -/
def performIn (perform : ω → κ → StateM σ (Except ConfigError Unit × ω)) (object : ω) :
    List (σ × κ) → List (Step ω κ σ) × ω
  | [] => ([], object)
  | (found, call) :: calls =>
    let answer := (perform object call).run found
    let later := performIn perform answer.1.2 calls
    (⟨object, found, call, answer.1.1, answer.1.2, answer.2⟩ :: later.1, later.2)

theorem run_performIn (perform : ω → κ → StateM σ (Except ConfigError Unit × ω)) (object : ω)
    (calls : List (σ × κ)) :
    Run perform object (performIn perform object calls).1 (performIn perform object calls).2 := by
  suffices hlater : ∀ start steps, Run perform start steps object →
      Run perform start (steps ++ (performIn perform object calls).1)
        (performIn perform object calls).2 from hlater object [] .nil
  induction calls generalizing object with
  | nil =>
      intro start steps h
      rw [performIn, List.append_nil]
      exact h
  | cons call calls ih =>
      intro start steps h
      have hstep : Run perform start (steps ++ [⟨object, call.1, call.2, _, _, _⟩])
          ((perform object call.2).run call.1).1.2 := h.snoc rfl
      have hlater := ih _ start _ hstep
      rw [List.append_assoc] at hlater
      exact hlater

end LayeredConfig

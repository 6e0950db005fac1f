import LayeredConfig.Live
import LayeredConfig.Proofs.Derived.Composition
import LayeredConfig.Proofs.Run

/-!
The value that a live value keeps back, along runs of calls with arbitrary look-ups in between. It
is the latest answer, so that a commit adopts what was seen last, as long as no look-up has been
passed over since: a look-up that is passed over leaves an older value where it is.
-/

namespace LayeredConfig

variable {σ : Type}

/-- What a caller can do with a live value. -/
inductive LiveCall
  | current | commit | discard
  | setPolicy (policy : UpdatePolicy)

namespace LiveState

/-- A value differs from the latest one, and the policy takes no note of it. -/
def PassesOver (s : LiveState) (v : Option Value) : Prop :=
  (s.policy = .never ∨ s.policy = .logOnly) ∧ agrees v s.latest = false

/-- A value differs from the latest one, and the policy keeps it back. -/
def KeepsBack (s : LiveState) (v : Option Value) : Prop :=
  s.policy = .explicit ∧ agrees v s.latest = false

theorem pending_observe (s : LiveState) (seen v : Option Value) :
    (s.observe seen).pending = some v ↔
      s.KeepsBack seen ∧ seen = v ∨ s.PassesOver seen ∧ s.pending = some v := by
  unfold observe KeepsBack PassesOver
  cases hagrees : agrees seen s.latest with
  | true => simp
  | false => cases hpolicy : s.policy <;> simp

end LiveState

namespace Live

/-- One call. What a look-up answers is not told here, nor whether a commit has adopted a value. -/
def perform (l : Live (StateM σ)) : LiveCall → StateM σ (Except ConfigError Unit × Live (StateM σ))
  | .current => do
    match ← l.current.run with
    | .ok (_, next) => return (.ok (), next)
    | .error e => return (.error e, l)
  | .commit => return (.ok (), l.commit.2)
  | .discard => return (.ok (), l.discard)
  | .setPolicy policy => return (.ok (), l.setPolicy policy)

def answer? (step : Step (Live (StateM σ)) LiveCall σ) : Option (Option Value) :=
  match step.call, outcome step.object.current.run step.found with
  | .current, .ok (v, _) => some v
  | _, _ => none

def PassedOver (step : Step (Live (StateM σ)) LiveCall σ) : Prop :=
  ∃ v, answer? step = some v ∧ step.object.state.PassesOver v

def KeptBack (v : Option Value) (step : Step (Live (StateM σ)) LiveCall σ) : Prop :=
  answer? step = some v ∧ step.object.state.KeepsBack v

/-- The step touches neither the latest value nor the one kept back: a change of the policy, or a
look-up that fails or is passed over. -/
def Idle (step : Step (Live (StateM σ)) LiveCall σ) : Prop :=
  (∃ policy, step.call = .setPolicy policy) ∨
    step.call = .current ∧ (answer? step = none ∨ PassedOver step)

variable {l next : Live (StateM σ)} {s t : σ} {result : Except ConfigError Unit}

theorem eq_observe_of_current {v : Option Value} (h : outcome l.current.run s = .ok (v, next)) :
    next = { l with state := l.state.observe v } := by
  have hrun : l.current.run.run s = (.ok (v, next), after l.current.run s) := Prod.ext h rfl
  obtain ⟨fresh, u, -, hnext⟩ := exists_run_of_bind_ok hrun
  cases hnext
  rfl

theorem perform_current (h : (l.perform .current).run s = ((result, next), t)) :
    (answer? ⟨l, s, .current, result, next, t⟩ = none ∧ next = l) ∨
      ∃ v, answer? ⟨l, s, .current, result, next, t⟩ = some v ∧
        next = { l with state := l.state.observe v } := by
  simp only [answer?]
  rw [perform, run_bind] at h
  cases hlookup : outcome l.current.run s with
  | error e =>
      rw [hlookup] at h
      cases h
      exact .inl ⟨rfl, rfl⟩
  | ok answer =>
      rw [hlookup] at h
      cases h
      exact .inr ⟨answer.1, rfl, eq_observe_of_current hlookup⟩

/-- A value is pending after a call if the call has kept it back, or if it was pending and the call
is idle. -/
theorem pending_of_perform {call : LiveCall} (h : (l.perform call).run s = ((result, next), t))
    (v : Option Value) :
    next.state.pending = some v ↔ KeptBack v ⟨l, s, call, result, next, t⟩ ∨
      Idle ⟨l, s, call, result, next, t⟩ ∧ l.state.pending = some v := by
  cases call with
  | current =>
      rcases perform_current h with ⟨hanswer, rfl⟩ | ⟨seen, hanswer, hnext⟩
      · simp [KeptBack, Idle, hanswer]
      · have hpending : next.state.pending = (l.state.observe seen).pending := by rw [hnext]
        rw [hpending, LiveState.pending_observe]
        simp only [KeptBack, Idle, PassedOver, hanswer]
        grind
  | commit =>
      cases h
      cases hpending : l.state.pending with
      | none => simp [KeptBack, Idle, answer?, commit, LiveState.commit, hpending]
      | some kept => simp [KeptBack, Idle, answer?, commit, LiveState.commit, hpending]
  | discard =>
      cases h
      simp [KeptBack, Idle, answer?, discard, LiveState.discard]
  | setPolicy policy =>
      cases h
      simp [KeptBack, Idle, answer?, setPolicy]

def lastLookUp? (steps : List (Step (Live (StateM σ)) LiveCall σ)) :
    Option (Step (Live (StateM σ)) LiveCall σ) :=
  (steps.filter fun step => (answer? step).isSome).getLast?

def observed? (steps : List (Step (Live (StateM σ)) LiveCall σ)) : Option (Option Value) :=
  (lastLookUp? steps).bind answer?

variable {start : Live (StateM σ)} {steps : List (Step (Live (StateM σ)) LiveCall σ)}
  {v : Option Value}

theorem pending_of_create {configuration : Configuration (StateM σ)} {key typeName : String}
    {hints : Option Hints} {policy : UpdatePolicy}
    (h : outcome (create configuration key typeName hints policy).run s = .ok start) :
    start.state.pending = none := by
  have hrun : (create configuration key typeName hints policy).run.run s =
      (.ok start, after (create configuration key typeName hints policy).run s) := Prod.ext h rfl
  obtain ⟨fresh, u, -, hstart⟩ := exists_run_of_bind_ok hrun
  cases hstart
  rfl

theorem pending_iff_since (hstart : start.state.pending = none) (h : Run perform start steps l) :
    l.state.pending = some v ↔ Since (KeptBack v) Idle steps := by
  induction h with
  | nil => simp [hstart, not_since_nil]
  | snoc _ hstep ih => rw [pending_of_perform hstep, since_concat, ih]

theorem PassedOver.of_idle {step : Step (Live (StateM σ)) LiveCall σ} (h : Idle step)
    (hanswer : (answer? step).isSome = true) : PassedOver step := by
  obtain ⟨policy, hcall⟩ | ⟨-, hnone | hpassed⟩ := h
  · rw [answer?, hcall] at hanswer
    cases hanswer
  · rw [hnone] at hanswer
    cases hanswer
  · exact hpassed

theorem observed_of_since (h : Since (KeptBack v) Idle steps)
    (hnoted : ∀ step, lastLookUp? steps = some step → ¬ PassedOver step) :
    observed? steps = some v := by
  obtain ⟨earlier, step, later, rfl, ⟨hanswer, -⟩, hidle⟩ := h
  have hlast : lastLookUp? (earlier ++ step :: later) =
      some ((lastLookUp? later).getD step) := by
    simp [lastLookUp?, hanswer, List.getLast?_cons]
  cases hlater : lastLookUp? later with
  | none =>
      rw [observed?, hlast, hlater]
      exact hanswer
  | some other =>
      -- A look-up that succeeds in an idle step has been passed over.
      rw [hlater] at hlast
      obtain ⟨hmem, hother⟩ := List.mem_filter.1 (List.mem_of_getLast? hlater)
      exact absurd (.of_idle (hidle other hmem) hother) (hnoted other hlast)

/-- The value that is pending has been kept back by a look-up, and since then the calls have been
idle. So, unless the latest look-up that has succeeded was passed over, what is pending is what this
look-up has answered, and a commit that adopts a value adopts the one that was seen last. -/
theorem pending_observed {configuration : Configuration (StateM σ)} {key typeName : String}
    {hints : Option Hints} {policy : UpdatePolicy}
    (hstart : outcome (create configuration key typeName hints policy).run s = .ok start)
    (hrun : Run perform start steps l) :
    (∀ v, l.state.pending = some v ↔ Since (KeptBack v) Idle steps) ∧
    ((∀ step, lastLookUp? steps = some step → ¬ PassedOver step) →
      (∀ v, l.state.pending = some v → observed? steps = some v) ∧
      (l.commit.1 = true → observed? steps = some l.commit.2.state.latest)) := by
  have hpending : ∀ v, l.state.pending = some v ↔ Since (KeptBack v) Idle steps := by
    intro v
    exact pending_iff_since (pending_of_create hstart) hrun
  refine ⟨hpending, ?_⟩
  intro hnoted
  have hobserved : ∀ v, l.state.pending = some v → observed? steps = some v := by
    intro v hv
    exact observed_of_since ((hpending v).1 hv) hnoted
  refine ⟨hobserved, ?_⟩
  intro hdone
  cases hkept : l.state.pending with
  | none =>
      simp only [commit, LiveState.commit, hkept] at hdone
      cases hdone
  | some v =>
      simp only [commit, LiveState.commit, hkept]
      exact hobserved v hkept

end Live

namespace Sample

/-- A world in which a memory provider holds one entry at most. -/
def holding (entries : List (String × Option String)) : World :=
  (World.initial "/").setMemory 0 (.ofList entries)

def watched : Live Act :=
  ⟨memoryOnly 0 "notes", "n", "String", none, ⟨.explicit, some (.text "1"), none⟩⟩

theorem create_watched :
    outcome (Live.create (memoryOnly 0 "notes") "n" "String" none .explicit).run
      (holding [("n", some "1")]) = .ok watched := rfl

/-- One value is passed over, but the look-up after it is not: the key is gone, and this is what a
commit adopts. -/
theorem missing_key_adopted :
    let run := performIn Live.perform watched
      [(holding [("n", some "2")], .current), (holding [], .setPolicy .never),
        (holding [("n", some "3")], .current), (holding [], .setPolicy .explicit),
        (holding [], .current), (holding [], .setPolicy .logOnly)]
    run.2.state.pending = some none ∧ Live.observed? run.1 = some none ∧
      Live.observed? run.1 = some run.2.commit.2.state.latest := by
  intro run
  have hrun : Run Live.perform watched run.1 run.2 := run_performIn _ _ _
  have hpolicy : (Live.lastLookUp? run.1).map (·.object.state.policy) = some .explicit := rfl
  have hnoted : ∀ step, Live.lastLookUp? run.1 = some step → ¬ Live.PassedOver step := by
    rintro step hstep ⟨v, -, hpassed, -⟩
    rw [hstep] at hpolicy
    have hexplicit : step.object.state.policy = .explicit := Option.some.inj hpolicy
    simp [hexplicit] at hpassed
  obtain ⟨-, hobserved⟩ := Live.pending_observed create_watched hrun
  obtain ⟨hpending, hcommit⟩ := hobserved hnoted
  exact ⟨rfl, hpending none rfl, hcommit rfl⟩

/-- A look-up that is passed over leaves an older value pending, and a commit adopts that one. -/
theorem older_value_adopted :
    let run := performIn Live.perform watched
      [(holding [("n", some "2")], .current), (holding [], .setPolicy .never),
        (holding [("n", some "3")], .current)]
    outcome (Live.create (memoryOnly 0 "notes") "n" "String" none .explicit).run
        (holding [("n", some "1")]) = .ok watched ∧
      Run Live.perform watched run.1 run.2 ∧
      run.2.state.pending = some (some (.text "2")) ∧
      Live.observed? run.1 = some (some (.text "3")) ∧
      run.2.commit.1 = true ∧ run.2.commit.2.state.latest = some (.text "2") := by
  intro run
  have hrun : Run Live.perform watched run.1 run.2 := run_performIn _ _ _
  exact ⟨create_watched, hrun, rfl, rfl, rfl, rfl⟩

end Sample

end LayeredConfig

import LayeredConfig.Proofs.Derived.Typed
import LayeredConfig.Proofs.Live.Pending

/-!
What a live value adopts, and when. Its calls compare values as their type does; for a type whose
equality is the equality of its values, the latest value is known exactly after every call of a run.
-/

namespace LayeredConfig

variable {σ : Type}

namespace Value

/-- Values of a type are equal as the type sees it only if they are the same. -/
def LawfulEquality (typeName : String) : Prop :=
  ∀ v w : Value, v.typeName = typeName → w.typeName = typeName → (v.same w = true ↔ v = w)

theorem lawfulEquality_of_ne {typeName : String} (h : ∀ width : FloatWidth, width.name ≠ typeName) :
    LawfulEquality typeName := by
  intro v w hv hw
  cases v with
  | float width x => exact absurd hv (h width)
  | _ => exact decide_eq_true_iff

end Value

def OfType (typeName : String) (found : Option Value) : Prop :=
  ∀ v, found = some v → v.typeName = typeName

theorem Descriptor.ofType_of_take {target : Descriptor} {typeName : String}
    {found taken : Option Value} (h : target.take typeName found = .ok taken) :
    OfType typeName taken := by
  cases found with
  | none =>
      cases h
      exact nofun
  | some v =>
      rw [take] at h
      split at h
      · rename_i hv
        cases h
        rintro _ ⟨⟩
        exact hv
      · cases h

namespace LiveState

theorem agrees_iff {typeName : String} (hlawful : Value.LawfulEquality typeName)
    {a b : Option Value} (ha : OfType typeName a) (hb : OfType typeName b) :
    agrees a b = true ↔ a = b := by
  cases a with
  | none => cases b <;> simp [agrees]
  | some v =>
      cases b with
      | none => simp [agrees]
      | some w =>
          rw [agrees, Option.some.injEq]
          exact hlawful v w (ha v rfl) (hb w rfl)

/-- Everything that taking note of a value can do. -/
theorem observe_cases (s : LiveState) (v : Option Value) :
    agrees v s.latest = true ∧ s.observe v = { s with pending := none } ∨
      agrees v s.latest = false ∧
        (s.policy = .immediate ∧ s.observe v = { s with latest := v, pending := none } ∨
          s.policy = .explicit ∧ s.observe v = { s with pending := some v } ∨
          (s.policy = .never ∨ s.policy = .logOnly) ∧ s.observe v = s) := by
  unfold observe
  cases hagrees : agrees v s.latest with
  | true => simp
  | false => cases hpolicy : s.policy <;> simp

end LiveState

namespace Live

variable {l next start : Live (StateM σ)} {typeName : String} {s t : σ}
  {result : Except ConfigError Unit}

theorem ofType_of_resolve {found : Option Value} (h : l.resolve.run.run s = (.ok found, t)) :
    OfType l.typeName found := by
  obtain ⟨_, u, -, hlookup⟩ := exists_run_of_bind_ok h
  obtain ⟨shown, u', -, htake⟩ := exists_run_of_bind_ok hlookup
  cases htaken : (Descriptor.plain l.typeName).take l.typeName (shown.map Converted.asValue) with
  | error e =>
      rw [htaken] at htake
      cases htake
  | ok taken =>
      rw [htaken] at htake
      cases htake
      exact Descriptor.ofType_of_take htaken

theorem ofType_of_current {v : Option Value} (h : outcome l.current.run s = .ok (v, next)) :
    OfType l.typeName v := by
  have hrun : l.current.run.run s = (.ok (v, next), after l.current.run s) := Prod.ext h rfl
  obtain ⟨fresh, u, hresolve, hnext⟩ := exists_run_of_bind_ok hrun
  cases hnext
  exact ofType_of_resolve hresolve

theorem ofType_of_answer? {step : Step (Live (StateM σ)) LiveCall σ} {v : Option Value}
    (h : answer? step = some v) : OfType step.object.typeName v := by
  rw [answer?] at h
  split at h
  · rename_i hlookup
    cases h
    exact ofType_of_current hlookup
  · cases h

/-- The values of a live value are of its type, and what it keeps back differs from the latest one
as the type sees it. -/
structure Sound (typeName : String) (l : Live (StateM σ)) : Prop where
  typed : l.typeName = typeName
  latest : OfType typeName l.state.latest
  pending : ∀ v, l.state.pending = some v → OfType typeName v
  differs : ∀ v, l.state.pending = some v → LiveState.agrees v l.state.latest = false

/-- What a step adopts: the answer of a look-up under the policy to adopt at once, or the value kept
back when it is committed. -/
def adopted? (step : Step (Live (StateM σ)) LiveCall σ) : Option (Option Value) :=
  match step.call with
  | .current => if step.object.state.policy = .immediate then answer? step else none
  | .commit => step.object.state.pending
  | .discard | .setPolicy _ => none

theorem Sound.of_policy (h : l.Sound typeName) (policy : UpdatePolicy) :
    (l.setPolicy policy).Sound typeName := ⟨h.typed, h.latest, h.pending, h.differs⟩

theorem Sound.cleared {v : Option Value} (h : l.Sound typeName) (hv : OfType typeName v) :
    Sound typeName { l with state := { l.state with latest := v, pending := none } } :=
  ⟨h.typed, hv, nofun, nofun⟩

theorem Sound.observe {v : Option Value} (h : l.Sound typeName) (hv : OfType typeName v) :
    Sound typeName { l with state := l.state.observe v } := by
  rcases l.state.observe_cases v with ⟨-, heq⟩ | ⟨hdiffers, ⟨-, heq⟩ | ⟨-, heq⟩ | ⟨-, heq⟩⟩
  · rw [heq]
    exact h.cleared h.latest
  · rw [heq]
    exact h.cleared hv
  · rw [heq]
    refine ⟨h.typed, h.latest, ?_, ?_⟩
    · rintro _ ⟨⟩
      exact hv
    · rintro _ ⟨⟩
      exact hdiffers
  · rw [heq]
    exact h

theorem Sound.commit (h : l.Sound typeName) : l.commit.2.Sound typeName := by
  unfold Live.commit LiveState.commit
  cases hpending : l.state.pending with
  | none => exact h
  | some v => exact h.cleared (h.pending v hpending)

theorem Sound.perform {call : LiveCall} (h : l.Sound typeName)
    (hstep : (l.perform call).run s = ((result, next), t)) : next.Sound typeName := by
  cases call with
  | current =>
      rcases perform_current hstep with ⟨-, rfl⟩ | ⟨v, hanswer, rfl⟩
      · exact h
      · have hv : OfType l.typeName v := ofType_of_answer? hanswer
        exact h.observe (h.typed ▸ hv)
  | commit =>
      cases hstep
      exact h.commit
  | discard =>
      cases hstep
      exact h.cleared h.latest
  | setPolicy policy =>
      cases hstep
      exact h.of_policy policy

/-- For a lawful equality, a value that agrees with the latest one is this value, so a look-up under
the policy to adopt at once leaves its answer as the latest value in any case. -/
theorem latest_observe (hlawful : Value.LawfulEquality typeName) (h : l.Sound typeName)
    {v : Option Value} (hv : OfType typeName v) : (l.state.observe v).latest =
      if l.state.policy = .immediate then v else l.state.latest := by
  rcases l.state.observe_cases v with
    ⟨hagrees, heq⟩ | ⟨-, ⟨hpolicy, heq⟩ | ⟨hpolicy, heq⟩ | ⟨hpolicy, heq⟩⟩
  · have hsame : v = l.state.latest := (LiveState.agrees_iff hlawful hv h.latest).1 hagrees
    rw [heq, hsame, ite_self]
  · rw [heq, if_pos hpolicy]
  · rw [heq, hpolicy]
    rfl
  · rw [heq]
    rcases hpolicy with hpolicy | hpolicy <;> rw [hpolicy] <;> rfl

theorem latest_of_perform (hlawful : Value.LawfulEquality typeName) {call : LiveCall}
    (h : l.Sound typeName) (hstep : (l.perform call).run s = ((result, next), t)) :
    next.state.latest = (adopted? ⟨l, s, call, result, next, t⟩).getD l.state.latest := by
  cases call with
  | current =>
      rcases perform_current hstep with ⟨hanswer, rfl⟩ | ⟨v, hanswer, rfl⟩
      · simp [adopted?, hanswer]
      · have hv : OfType l.typeName v := ofType_of_answer? hanswer
        simp only [adopted?, hanswer]
        rw [latest_observe hlawful h (h.typed ▸ hv)]
        split <;> rfl
  | commit =>
      cases hstep
      simp only [adopted?, commit, LiveState.commit]
      cases l.state.pending <;> rfl
  | discard =>
      cases hstep
      rfl
  | setPolicy policy =>
      cases hstep
      rfl

theorem eq_of_perform_error {call : LiveCall} {e : ConfigError}
    (hstep : (l.perform call).run s = ((.error e, next), t)) : next = l := by
  cases call with
  | current =>
      rw [perform, run_bind] at hstep
      cases hlookup : outcome l.current.run s with
      | error e =>
          rw [hlookup] at hstep
          cases hstep
          rfl
      | ok answer =>
          rw [hlookup] at hstep
          cases hstep
  | commit => cases hstep
  | discard => cases hstep
  | setPolicy policy => cases hstep

variable {steps : List (Step (Live (StateM σ)) LiveCall σ)}
  {configuration : Configuration (StateM σ)}
  {key : String} {hints : Option Hints} {policy : UpdatePolicy}

theorem sound_of_create
    (h : outcome (create configuration key typeName hints policy).run s = .ok start) :
    start.Sound typeName := by
  have hrun : (create configuration key typeName hints policy).run.run s =
      (.ok start, after (create configuration key typeName hints policy).run s) := Prod.ext h rfl
  obtain ⟨fresh, u, hresolve, hstart⟩ := exists_run_of_bind_ok hrun
  cases hstart
  exact ⟨rfl, ofType_of_resolve hresolve, nofun, nofun⟩

theorem sound_of_run (hstart : start.Sound typeName) (h : Run perform start steps l) :
    l.Sound typeName :=
  h.invariant hstart fun _ _ _ _ _ _ hsound hstep => hsound.perform hstep

/-- Of a value whose type has a lawful equality, the latest one is what the calls have adopted: a
look-up that succeeds under the policy to adopt at once adopts its answer, a commit adopts the value
kept back, and no other call changes it. What is kept back, be it that the key has gone, always
differs from the latest value. A commit says whether there was anything to adopt, and a look-up that
fails leaves the live value as it was. -/
theorem latest_adopted (hlawful : Value.LawfulEquality typeName)
    (hstart : outcome (create configuration key typeName hints policy).run s = .ok start)
    (hrun : Run perform start steps l) :
    (∀ step ∈ steps,
      step.next.state.latest = (adopted? step).getD step.object.state.latest ∧
      ∀ e, step.result = .error e → step.next = step.object) ∧
    (∀ v, l.state.pending = some v → v ≠ l.state.latest) ∧
    (l.commit.1 = true ↔ ∃ v, l.state.pending = some v) := by
  have hsound : start.Sound typeName := sound_of_create hstart
  refine ⟨?_, ?_, ?_⟩
  · intro step hmem
    obtain ⟨⟨earlier, hearlier⟩, hstep⟩ := hrun.step_of_mem step hmem
    refine ⟨latest_of_perform hlawful (sound_of_run hsound hearlier) hstep, ?_⟩
    intro e he
    rw [he] at hstep
    exact eq_of_perform_error hstep
  · intro v hv heq
    have hl : l.Sound typeName := sound_of_run hsound hrun
    have hdiffers := hl.differs v hv
    rw [(LiveState.agrees_iff hlawful (hl.pending v hv) hl.latest).2 heq] at hdiffers
    cases hdiffers
  · unfold commit LiveState.commit
    cases l.state.pending <;> simp

end Live

namespace Sample

def counted : Live Act :=
  ⟨ports, "n", "i64", none, ⟨.explicit, some (.integer .i64 1), none⟩⟩

theorem create_counted :
    outcome (Live.create ports "n" "i64" none .explicit).run (holding [("n", some "1")]) =
      .ok counted := rfl

theorem lawfulEquality_number : Value.LawfulEquality "i64" :=
  Value.lawfulEquality_of_ne fun width => by cases width <;> decide

/-- The 2 that is kept back survives a text that is no number and is adopted by the commit; then the
key is gone, which differs from the 2 and waits for a commit of its own. -/
theorem counted_adopts :
    let run := performIn Live.perform counted
      [(holding [("n", some "2")], .current), (holding [("n", some "x")], .current),
        (holding [], .commit), (holding [], .current)]
    run.1.map Live.adopted? = [none, none, some (some (.integer .i64 2)), none] ∧
      run.1.map (·.succeeds) = [true, false, true, true] ∧
      (∀ step ∈ run.1,
        step.next.state.latest = (Live.adopted? step).getD step.object.state.latest ∧
        ∀ e, step.result = .error e → step.next = step.object) ∧
      run.2.state.latest = some (.integer .i64 2) ∧ run.2.state.pending = some none ∧
      none ≠ run.2.state.latest ∧ run.2.commit.1 = true := by
  intro run
  have hrun : Run Live.perform counted run.1 run.2 := run_performIn _ _ _
  obtain ⟨hsteps, hpending, hcommit⟩ :=
    Live.latest_adopted lawfulEquality_number create_counted hrun
  exact ⟨rfl, rfl, hsteps, rfl, rfl, hpending none rfl, hcommit.2 ⟨none, rfl⟩⟩

end Sample

end LayeredConfig

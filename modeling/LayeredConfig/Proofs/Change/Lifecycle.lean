import LayeredConfig.Change.Call
import LayeredConfig.Proofs.Change.Staging
import LayeredConfig.Proofs.Run
import LayeredConfig.Sample.Backend

/-!
The life of a change request. `Turn` says everything that one call can do to a request; what holds
along every run of calls follows from it, whatever the routine of the backend does.
-/

namespace LayeredConfig

/-- The changes that a call stages. The other calls are `commit`, `cancel` and `look`. -/
def RequestCall.changes? : RequestCall → Option (List Mutation)
  | .put key value => some [.put key value]
  | .putAll entries => some (entries.map fun e => .put e.1 e.2)
  | .remove keys => some (keys.map .remove)
  | .removeAll keys => some (keys.map .remove)
  | .commit | .cancel | .look => none

/-- A call gives an empty key, alone or in a batch. -/
def RequestCall.NamesEmpty (call : RequestCall) : Prop :=
  ∃ changes, call.changes? = some changes ∧ ∃ change ∈ changes, change.key = ""

def RequestCall.Names (call : RequestCall) (key : String) : Prop :=
  ∃ changes, call.changes? = some changes ∧ ∃ change ∈ changes, change.key = key

theorem RequestCall.not_namesEmpty {call : RequestCall} (h : call.changes? = none) :
    ¬ call.NamesEmpty := by
  rintro ⟨changes, hchanges, -⟩
  cases h.symm.trans hchanges

namespace ChangeRequest

variable {m : Type → Type} {σ : Type}

theorem isClosed_iff {r : ChangeRequest m} : r.isClosed = true ↔ r.state ≠ .opened := by
  simp [isClosed]

theorem requireOpen_of_opened {r : ChangeRequest m} (h : r.state = .opened) :
    r.requireOpen = .ok () := by
  simp [requireOpen, isClosed, h]

theorem requireOpen_of_isClosed {r : ChangeRequest m} (h : r.isClosed = true) :
    r.requireOpen = .error (.requestClosed Tag.masked r.backend) := by
  simp [requireOpen, h]

theorem requireKeys_eq_ok {keys : List String} (h : ∀ key ∈ keys, key ≠ "") :
    requireKeys keys = .ok () := by
  induction keys with
  | nil => rfl
  | cons key keys ih =>
      obtain ⟨hkey, hkeys⟩ := List.forall_mem_cons.1 h
      change (ConfigError.requireKey key >>= fun _ => requireKeys keys) = _
      rw [ConfigError.requireKey_ok hkey, ih hkeys]
      rfl

theorem requireKeys_eq_error {keys : List String} (h : "" ∈ keys) :
    requireKeys keys = .error (.argument .emptyKey) := by
  induction keys with
  | nil => cases h
  | cons key keys ih =>
      change (ConfigError.requireKey key >>= fun _ => requireKeys keys) = _
      by_cases hkey : key = ""
      · subst hkey
        rfl
      · rw [ConfigError.requireKey_ok hkey]
        exact ih ((List.mem_cons.1 h).resolve_left fun heq => hkey heq.symm)

end ChangeRequest

theorem ChangeSet.putAll_eq_foldl_stage (c : ChangeSet) (entries : List (String × String)) :
    c.putAll entries = (entries.map fun e => Mutation.put e.1 e.2).foldl stage c := by
  rw [List.foldl_map]
  rfl

theorem ChangeSet.removeAll_eq_foldl_stage (c : ChangeSet) (keys : List String) :
    c.removeAll keys = (keys.map Mutation.remove).foldl stage c := by
  rw [List.foldl_map]
  rfl

namespace ChangeRequest

variable {m : Type → Type} {σ : Type}

def staging (r : ChangeRequest m) (changes : List Mutation) : ChangeRequest m :=
  { r with changes := changes.foldl .stage r.changes }

section
variable [Monad m]

/-- All calls that stage are one: two checks, and the changes. -/
theorem perform_of_changes? (r : ChangeRequest m) {call : RequestCall} {changes : List Mutation}
    (hcall : call.changes? = some changes) :
    r.perform call = return r.settle (do
      r.requireOpen
      requireKeys (changes.map (·.key))
      return r.staging changes) := by
  cases call with
  | put key value =>
      cases hcall
      have hkey : requireKeys [key] = ConfigError.requireKey key := by
        change (ConfigError.requireKey key >>= fun _ => pure ()) = _
        cases ConfigError.requireKey key <;> rfl
      simp only [List.map_cons, List.map_nil, Mutation.key, hkey]
      rfl
  | putAll entries =>
      cases hcall
      rw [List.map_map, staging, ← ChangeSet.putAll_eq_foldl_stage]
      rfl
  | remove keys =>
      cases hcall
      rw [List.map_map, staging, ← ChangeSet.removeAll_eq_foldl_stage]
      change _ = pure (r.settle (do r.requireOpen; requireKeys (keys.map id); _))
      rw [List.map_id]
      rfl
  | removeAll keys =>
      cases hcall
      rw [List.map_map, staging, ← ChangeSet.removeAll_eq_foldl_stage]
      change _ = pure (r.settle (do r.requireOpen; requireKeys (keys.map id); _))
      rw [List.map_id]
      rfl
  | commit => cases hcall
  | cancel => cases hcall
  | look => cases hcall

theorem perform_staging {r : ChangeRequest m} (hopen : r.state = .opened) {call : RequestCall}
    {changes : List Mutation} (hcall : call.changes? = some changes)
    (hkeys : ∀ change ∈ changes, change.key ≠ "") :
    r.perform call = pure (.ok (), r.staging changes) := by
  have hnamed : requireKeys (changes.map (·.key)) = .ok () :=
    requireKeys_eq_ok (List.forall_mem_map.2 hkeys)
  rw [perform_of_changes? r hcall, requireOpen_of_opened hopen, hnamed]
  rfl

theorem perform_unnamed {r : ChangeRequest m} (hopen : r.state = .opened) {call : RequestCall}
    (hcall : call.NamesEmpty) : r.perform call = pure (.error (.argument .emptyKey), r) := by
  obtain ⟨changes, hchanges, change, hmem, hkey⟩ := hcall
  have hempty : requireKeys (changes.map (·.key)) = .error (.argument .emptyKey) :=
    requireKeys_eq_error (List.mem_map.2 ⟨change, hmem, hkey⟩)
  rw [perform_of_changes? r hchanges, requireOpen_of_opened hopen, hempty]
  rfl

theorem perform_cancel {r : ChangeRequest m} (hopen : r.state = .opened) :
    r.perform .cancel = pure (.ok (), r.close .cancelled) := by
  rw [perform, cancel, requireOpen_of_opened hopen]
  rfl

/-- The routine gets what is staged at this moment; its failure changes nothing of the request. -/
theorem perform_commit {r : ChangeRequest m} (hopen : r.state = .opened) :
    r.perform .commit = (r.persist r.changes).run >>= fun
      | .error e => pure (.error e, r)
      | .ok () => pure (.ok (), r.close .committed) := by
  have hcommit := commit.eq_def r
  rw [requireOpen_of_opened hopen] at hcommit
  exact hcommit

theorem run_commit {r : ChangeRequest (StateM σ)} (hopen : r.state = .opened) (s : σ) :
    (r.perform .commit).run s =
      match (r.persist r.changes).run.run s with
      | (.error e, t) => ((.error e, r), t)
      | (.ok _, t) => ((.ok (), r.close .committed), t) := by
  rw [perform_commit hopen, run_bind, outcome, after]
  cases (r.persist r.changes).run.run s with
  | mk result t =>
      cases result with
      | error e => rfl
      | ok _ => rfl

theorem perform_eq_pure (r : ChangeRequest m) {call : RequestCall} (h : call ≠ .commit) :
    ∃ answer, r.perform call = pure answer := by
  cases call with
  | commit => exact absurd rfl h
  | _ => exact ⟨_, rfl⟩

theorem perform_of_isClosed {r : ChangeRequest m} (h : r.isClosed = true) {call : RequestCall}
    (hcall : call ≠ .look) :
    r.perform call = pure (.error (.requestClosed Tag.masked r.backend), r) := by
  have hclosed := requireOpen_of_isClosed h
  cases hchanges : call.changes? with
  | some changes =>
      rw [perform_of_changes? r hchanges, hclosed]
      rfl
  | none =>
      cases call with
      | look => exact absurd rfl hcall
      | commit => rw [perform, commit, hclosed]
      | cancel =>
          rw [perform, cancel, hclosed]
          rfl
      | _ => cases hchanges

end

/-- Everything that a call can do to a request and to the state around it. -/
inductive Turn (r : ChangeRequest (StateM σ)) (s : σ) :
    RequestCall → Except ConfigError Unit → ChangeRequest (StateM σ) → σ → Prop
  | looked : Turn r s .look (.ok ()) r s
  | closed {call} : r.isClosed = true → call ≠ .look →
      Turn r s call (.error (.requestClosed Tag.masked r.backend)) r s
  | unnamed {call} : r.state = .opened → call.NamesEmpty →
      Turn r s call (.error (.argument .emptyKey)) r s
  | staged {call changes} : r.state = .opened → call.changes? = some changes →
      (∀ change ∈ changes, change.key ≠ "") → Turn r s call (.ok ()) (r.staging changes) s
  | cancelled : r.state = .opened → Turn r s .cancel (.ok ()) (r.close .cancelled) s
  | committed {t} : r.state = .opened → (r.persist r.changes).run.run s = (.ok (), t) →
      Turn r s .commit (.ok ()) (r.close .committed) t
  | failed {e t} : r.state = .opened → (r.persist r.changes).run.run s = (.error e, t) →
      Turn r s .commit (.error e) r t

theorem turn_of_perform {r r' : ChangeRequest (StateM σ)} {call : RequestCall} {s t : σ}
    {result : Except ConfigError Unit} (h : (r.perform call).run s = ((result, r'), t)) :
    Turn r s call result r' t := by
  by_cases hlook : call = .look
  · subst hlook
    cases h
    exact .looked
  by_cases hclosed : r.isClosed = true
  · rw [perform_of_isClosed hclosed hlook] at h
    cases h
    exact .closed hclosed hlook
  have hopen : r.state = .opened := Decidable.not_not.1 fun hne => hclosed (isClosed_iff.2 hne)
  cases hchanges : call.changes? with
  | some changes =>
      by_cases hempty : call.NamesEmpty
      · rw [perform_unnamed hopen hempty] at h
        cases h
        exact .unnamed hopen hempty
      · have hkeys : ∀ change ∈ changes, change.key ≠ "" :=
          fun change hmem hkey => hempty ⟨changes, hchanges, change, hmem, hkey⟩
        rw [perform_staging hopen hchanges hkeys] at h
        cases h
        exact .staged hopen hchanges hkeys
  | none =>
      cases call with
      | look => exact absurd rfl hlook
      | cancel =>
          rw [perform_cancel hopen] at h
          cases h
          exact .cancelled hopen
      | commit =>
          rw [run_commit hopen] at h
          cases hpersist : (r.persist r.changes).run.run s with
          | mk answer u =>
              rw [hpersist] at h
              cases answer with
              | error e =>
                  cases h
                  exact .failed hopen hpersist
              | ok _ =>
                  cases h
                  exact .committed hopen hpersist
      | _ => cases hchanges

/-- A request with the routine that it was opened with. Once it is closed nothing is staged. -/
structure Sound (persist : ChangeSet → ExceptT ConfigError (StateM σ) Unit)
    (r : ChangeRequest (StateM σ)) : Prop where
  persist_eq : r.persist = persist
  proper : r.changes.Proper
  closed_empty : r.isClosed = true → r.changes = .empty

theorem Sound.turn {persist : ChangeSet → ExceptT ConfigError (StateM σ) Unit}
    {r r' : ChangeRequest (StateM σ)} {call : RequestCall} {result : Except ConfigError Unit}
    {s t : σ} (h : r.Sound persist) (hturn : Turn r s call result r' t) : r'.Sound persist := by
  cases hturn with
  | looked => exact h
  | closed _ _ => exact h
  | unnamed _ _ => exact h
  | failed _ _ => exact h
  | cancelled _ => exact ⟨h.persist_eq, .empty, fun _ => rfl⟩
  | committed _ _ => exact ⟨h.persist_eq, .empty, fun _ => rfl⟩
  | staged hopen _ hkeys =>
      refine ⟨h.persist_eq, h.proper.foldl_stage hkeys, ?_⟩
      intro hclosed
      exact absurd hopen (isClosed_iff.1 hclosed)

theorem sound_of_run {tag : Tag} {backend : String}
    {persist : ChangeSet → ExceptT ConfigError (StateM σ) Unit}
    {steps : List (Step (ChangeRequest (StateM σ)) RequestCall σ)} {r : ChangeRequest (StateM σ)}
    (h : Run perform (create tag backend persist) steps r) : r.Sound persist := by
  refine h.invariant ⟨rfl, .empty, fun _ => rfl⟩ ?_
  intro object call found result next left hsound hstep
  exact hsound.turn (turn_of_perform hstep)

theorem Turn.state {r r' : ChangeRequest (StateM σ)} {call : RequestCall}
    {result : Except ConfigError Unit} {s t : σ} (h : Turn r s call result r' t) :
    r'.state = r.state ∨ r.state = .opened ∧ (r'.state = .committed ∨ r'.state = .cancelled) := by
  cases h with
  | cancelled hopen => exact .inr ⟨hopen, .inr rfl⟩
  | committed hopen _ => exact .inr ⟨hopen, .inl rfl⟩
  | _ => exact .inl rfl

theorem Turn.persist_eq {r r' : ChangeRequest (StateM σ)} {call : RequestCall}
    {result : Except ConfigError Unit} {s t : σ} (h : Turn r s call result r' t) :
    r'.persist = r.persist := by
  cases h <;> rfl

theorem Turn.eq_of_error {r r' : ChangeRequest (StateM σ)} {call : RequestCall} {e : ConfigError}
    {s t : σ} (h : Turn r s call (.error e) r' t) : r' = r := by
  cases h with
  | closed _ _ => rfl
  | unnamed _ _ => rfl
  | failed _ _ => rfl

theorem Turn.not_namesEmpty {r r' : ChangeRequest (StateM σ)} {call : RequestCall} {s t : σ}
    (h : Turn r s call (.ok ()) r' t) : ¬ call.NamesEmpty := by
  cases h with
  | staged _ hcall hkeys =>
      rintro ⟨changes, hchanges, change, hmem, hkey⟩
      cases hcall.symm.trans hchanges
      exact hkeys change hmem hkey
  | _ => exact RequestCall.not_namesEmpty rfl

theorem Turn.routine {r r' : ChangeRequest (StateM σ)} {s t : σ}
    (h : Turn r s .commit (.ok ()) r' t) :
    r.state = .opened ∧ (r.persist r.changes).run.run s = (.ok (), t) := by
  cases h with
  | staged _ hcall _ => cases hcall
  | committed hopen hpersist => exact ⟨hopen, hpersist⟩

theorem Turn.error_iff {r r' : ChangeRequest (StateM σ)} {call : RequestCall}
    {result : Except ConfigError Unit} {s t : σ} (h : Turn r s call result r' t)
    (hopen : r.state = .opened) :
    (∃ e, result = .error e) ↔
      call.NamesEmpty ∨ call = .commit ∧ ∃ e, outcome (r.persist r.changes).run s = .error e := by
  constructor
  · rintro ⟨e, rfl⟩
    cases h with
    | closed hclosed _ => exact absurd hopen (isClosed_iff.1 hclosed)
    | unnamed _ hempty => exact .inl hempty
    | failed _ hpersist => exact .inr ⟨rfl, e, congrArg (·.1) hpersist⟩
  · intro hcause
    cases result with
    | error e => exact ⟨e, rfl⟩
    | ok _ =>
        rcases hcause with hempty | ⟨rfl, e, he⟩
        · exact absurd hempty h.not_namesEmpty
        · cases (congrArg (·.1) h.routine.2).symm.trans he

def persists (step : Step (ChangeRequest (StateM σ)) RequestCall σ) : Bool :=
  step.call = .commit && step.succeeds

theorem persists_iff {step : Step (ChangeRequest (StateM σ)) RequestCall σ} :
    persists step = true ↔ step.call = .commit ∧ step.result = .ok () := by
  simp [persists, Step.succeeds_iff]

@[simp] theorem persists_error (r next : ChangeRequest (StateM σ)) (found left : σ)
    (call : RequestCall) (e : ConfigError) :
    persists ⟨r, found, call, .error e, next, left⟩ = false := Bool.and_false _

/-- The routine has succeeded once if the request is committed, and else never. -/
theorem countP_persists {start : ChangeRequest (StateM σ)} (hstart : start.state = .opened)
    {steps : List (Step (ChangeRequest (StateM σ)) RequestCall σ)} {r : ChangeRequest (StateM σ)}
    (h : Run perform start steps r) :
    steps.countP persists = if r.state = .committed then 1 else 0 := by
  induction h with
  | nil => simp [hstart]
  | @snoc steps r found call result next left hrun hstep ih =>
      rw [List.countP_append, List.countP_singleton, ih]
      -- A routine that succeeds closes the request, so it was open, and none has succeeded before.
      cases turn_of_perform hstep with
      | looked => simp [persists]
      | closed _ _ => simp
      | unnamed _ _ => simp
      | failed _ _ => simp
      | staged hopen hcall _ =>
          have hcommit : call ≠ .commit := by
            rintro rfl
            cases hcall
          simp [persists, hcommit, staging, hopen]
      | cancelled hopen => simp [persists, hopen, close]
      | committed hopen _ => simp [persists_iff, hopen, close]

/-- At any time of a request's life: what is staged is proper, and nothing is staged once the
request is closed; from then on every call is refused without a look at the routine. An open request
moves to one of the closed states or stays; it refuses empty keys and passes on the failure of the
routine, both without a change. Only `commit` turns to the routine, with what is staged then, and
the routine succeeds once if the request is committed, and else never. -/
theorem lifecycle (tag : Tag) (backend : String)
    (persist : ChangeSet → ExceptT ConfigError (StateM σ) Unit)
    {steps : List (Step (ChangeRequest (StateM σ)) RequestCall σ)} {r : ChangeRequest (StateM σ)}
    (h : Run perform (create tag backend persist) steps r) :
    r.changes.Proper ∧ (r.isClosed = true → r.changes = .empty) ∧
    (∀ call, call ≠ .look → r.isClosed = true →
      r.perform call = pure (.error (.requestClosed Tag.masked r.backend), r)) ∧
    (∀ call found result next left, (r.perform call).run found = ((result, next), left) →
      (next.state = r.state ∨
        r.state = .opened ∧ (next.state = .committed ∨ next.state = .cancelled)) ∧
      (r.state = .opened → ((∃ e, result = .error e) ↔ call.NamesEmpty ∨
        call = .commit ∧ ∃ e, outcome (persist r.changes).run found = .error e)) ∧
      (∀ e, result = .error e → next = r)) ∧
    (∀ call, call ≠ .commit → ∃ answer, r.perform call = pure answer) ∧
    (∀ step ∈ steps, persists step = true → step.object.state = .opened ∧
      (persist step.object.changes).run.run step.found = (.ok (), step.left)) ∧
    steps.countP persists = if r.state = .committed then 1 else 0 := by
  have hsound := sound_of_run h
  refine ⟨hsound.proper, hsound.closed_empty, ?_, ?_, ?_, ?_, countP_persists rfl h⟩
  · intro call hcall hclosed
    exact perform_of_isClosed hclosed hcall
  · intro call found result next left hstep
    have hturn := turn_of_perform hstep
    refine ⟨hturn.state, ?_, ?_⟩
    · rw [← hsound.persist_eq]
      exact hturn.error_iff
    · rintro e rfl
      exact hturn.eq_of_error
  · intro call hcall
    exact perform_eq_pure r hcall
  · intro step hmem hpersists
    obtain ⟨⟨earlier, hearlier⟩, hstep⟩ := h.step_of_mem step hmem
    obtain ⟨hcall, hresult⟩ := persists_iff.1 hpersists
    rw [hcall, hresult] at hstep
    rw [← (sound_of_run hearlier).persist_eq]
    exact (turn_of_perform hstep).routine

end ChangeRequest

namespace Sample

/-- A batch with an empty key stages nothing of it; a refused commit may be repeated; what comes
after the second commit is refused, and the routine has succeeded once. -/
theorem scripted_lifecycle :
    let calls : List RequestCall :=
      [.putAll [("a", "1"), ("", "2")], .put "b" "3", .commit, .commit, .removeAll ["b"]]
    let run := performAll ChangeRequest.perform (scripted 0 "memory:demo" [true]) ⟨0, .empty⟩ calls
    run.1.map (·.succeeds) = [false, true, false, true, false] ∧
      run.2.1.isClosed = true ∧ run.2.1.changes = .empty ∧
      run.1.countP ChangeRequest.persists = 1 ∧ run.2.2.target.get? "b" = some "3" := by
  intro calls run
  have h : Run ChangeRequest.perform (scripted 0 "memory:demo" [true]) run.1 run.2.1 :=
    run_performAll _ _ _ _
  obtain ⟨-, hempty, -, -, -, -, hcount⟩ :=
    ChangeRequest.lifecycle 0 "memory:demo" (Ledger.take [true]) h
  have hstate : run.2.1.state = .committed := rfl
  refine ⟨rfl, rfl, hempty rfl, ?_, rfl⟩
  rw [hcount, if_pos hstate]

end Sample

end LayeredConfig

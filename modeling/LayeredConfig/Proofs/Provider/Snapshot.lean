import Mathlib.Data.List.DropRight
import LayeredConfig.Proofs.Provider.Listing

/-!
The snapshots that providers answer from. A provider of a file or of variables takes a snapshot at
the first look that can read the data, and another one out of a commit; a reload drops it. The
data may change at any time: what the provider answers comes from the one snapshot that is due,
and which one that is can be told from the history.
-/

namespace LayeredConfig

/-- Where a provider keeps its snapshot, and how it reads its data. -/
structure Cache where
  tag : Tag
  read : World → Except ConfigError (KeyMap String)

namespace Cache

variable {ι : Type}

def reloads (step : SessionStep ι Inquiry World) : Bool :=
  match step.call with
  | .access .reload => true
  | _ => false

def readBy (c : Cache) (step : SessionStep ι Inquiry World) : Option (KeyMap String) :=
  match step.call with
  | .access (.get _) | .access .properties => (c.read step.found).toOption
  | _ => none

/-- The result of a step that commits: the data at this step, with the changes of the request. -/
def committedBy (c : Cache) (step : SessionStep ι Inquiry World) : Option (KeyMap String) :=
  match step.call, step.result with
  | .request j .commit, .ok () => do
    let r ← step.object[j]?
    let entries ← (c.read step.found).toOption
    return r.changes.applyTo entries
  | _, _ => none

/-- The snapshot that a provider has to answer from after some steps, if it has one: of the steps
since the last reload, the result of the last commit, or else the data at the first one that could
read them. Before any reload the entries that are given at first stand for such data. -/
def due (c : Cache) (given : Option (KeyMap String)) (steps : List (SessionStep ι Inquiry World)) :
    Option (KeyMap String) :=
  let recent := steps.rtakeWhile (!reloads ·)
  let first := if steps.any reloads then none else given
  (recent.reverse.findSome? c.committedBy).or (first.or (recent.findSome? c.readBy))

/-- A look that could not read the data, or a commit that failed. -/
def Fails (c : Cache) (step : SessionStep ι Inquiry World) : Prop :=
  (∃ q, q ≠ .reload ∧ step.call = .access q ∧ ∃ e, c.read step.found = .error e) ∨
    ∃ j, step.call = .request j .commit ∧ ∃ e, step.result = .error e

variable {c : Cache} {given : Option (KeyMap String)} {steps : List (SessionStep ι Inquiry World)}

theorem due_nil : c.due given ([] : List (SessionStep ι Inquiry World)) = given := by
  simp [due]

theorem due_concat (step : SessionStep ι Inquiry World) :
    c.due given (steps ++ [step]) = if reloads step then none
      else (c.committedBy step).or ((c.due given steps).or (c.readBy step)) := by
  by_cases hreload : reloads step = true
  · have hrecent : (steps ++ [step]).rtakeWhile (!reloads ·) = [] :=
      List.rtakeWhile_concat_neg _ _ _ (by simp [hreload])
    simp [due, hrecent, hreload]
  · have hrecent : (steps ++ [step]).rtakeWhile (!reloads ·) =
        steps.rtakeWhile (!reloads ·) ++ [step] :=
      List.rtakeWhile_concat_pos _ _ _ (by simpa using hreload)
    rw [due, hrecent, List.reverse_append, List.findSome?_append, List.findSome?_append]
    simp [due, hreload, Option.or_assoc]

theorem committedBy_eq_none {step : SessionStep ι Inquiry World}
    (h : ∀ j, step.call = .request j .commit → ∃ e, step.result = .error e) :
    c.committedBy step = none := by
  unfold committedBy
  split
  · rename_i j hcall hresult
    obtain ⟨e, he⟩ := h j hcall
    cases hresult.symm.trans he
  · rfl

def current (c : Cache) (w : World) : Except ConfigError (KeyMap String) :=
  match w.snapshots c.tag with
  | some entries => .ok entries
  | none => c.read w

theorem toOption_current (c : Cache) (w : World) :
    (c.current w).toOption = (w.snapshots c.tag).or (c.read w).toOption := by
  rw [current]
  cases w.snapshots c.tag with
  | none => rfl
  | some entries => rfl

/-- A look at the entries gives the current ones, and keeps them. -/
def Fills (c : Cache) (x : ExceptT ConfigError Act (KeyMap String)) : Prop :=
  ∀ w, outcome x.run w = c.current w ∧
    (after x.run w).snapshots c.tag = (c.current w).toOption

theorem Fills.bind {x : ExceptT ConfigError Act (KeyMap String)} (h : c.Fills x) (w : World)
    (f : KeyMap String → Except ConfigError Answer) :
    (x >>= fun entries => (f entries : ExceptT ConfigError Act Answer)).run.run w =
      (c.current w >>= f, after x.run w) := by
  refine run_bind_check ?_
  rw [← (h w).1]
  rfl

/-- A routine that succeeds leaves what it read with the changes as the snapshot, and one that fails
leaves the snapshot as it is. -/
def Commits (c : Cache) (persist : ChangeSet → ExceptT ConfigError Act Unit) : Prop :=
  ∀ changes w result w', (persist changes).run.run w = (result, w') → match result with
    | .ok _ => ∃ entries, c.read w = .ok entries ∧
        w'.snapshots c.tag = some (changes.applyTo entries)
    | .error _ => w'.snapshots c.tag = w.snapshots c.tag

/-- A look fills a missing snapshot if it can read, a reload empties it, the routines of requests
commit to it, and nothing else touches it. -/
structure Lawful (c : Cache) (b : Backend ι Inquiry World String) : Prop where
  outside : ∀ w w', b.undisturbed w w' → w'.snapshots c.tag = w.snapshots c.tag
  opens : ∀ i w result w', (b.openRequest i).run.run w = (result, w') →
    w'.snapshots c.tag = w.snapshots c.tag ∧ ∀ r, result = .ok r → c.Commits r.persist
  looks : ∀ q, q ≠ .reload → ∀ w,
    (after (b.access q).run w).snapshots c.tag = (c.current w).toOption
  drops : ∀ w, (after (b.access .reload).run w).snapshots c.tag = none

variable {b : Backend ι Inquiry World String} {requests next : List (ChangeRequest Act)}
  {start w w' : World} {result : Except ConfigError Unit}

theorem Commits.turn {r r' : ChangeRequest Act} {j : Nat} {call : RequestCall}
    (h : c.Commits r.persist) (hr : requests[j]? = some r)
    (hturn : ChangeRequest.Turn r w call result r' w') :
    w'.snapshots c.tag =
      (c.committedBy (⟨requests, w, .request j call, result, next, w'⟩ :
        SessionStep ι Inquiry World)).or (w.snapshots c.tag) := by
  cases hturn with
  | committed _ hpersist =>
      obtain ⟨entries, hread, hsnapshot⟩ := h _ _ _ _ hpersist
      simp [committedBy, hr, hread, hsnapshot, Except.toOption]
  | failed _ hpersist =>
      rw [committedBy_eq_none fun _ _ => ⟨_, rfl⟩]
      exact h _ _ _ _ hpersist
  | staged _ hcall _ =>
      rw [committedBy_eq_none, Option.none_or]
      rintro _ ⟨⟩
      cases hcall
  | closed _ _ => rw [committedBy_eq_none fun _ _ => ⟨_, rfl⟩, Option.none_or]
  | unnamed _ _ => rw [committedBy_eq_none fun _ _ => ⟨_, rfl⟩, Option.none_or]
  | looked => simp [committedBy]
  | cancelled _ => simp [committedBy]

theorem Lawful.performed (h : c.Lawful b) (hcommits : ∀ r ∈ requests, c.Commits r.persist)
    {call : SessionCall ι Inquiry} (hperformed : b.Performed requests w call result next w') :
    let step : SessionStep ι Inquiry World := ⟨requests, w, call, result, next, w'⟩
    w'.snapshots c.tag = if reloads step then none
      else (c.committedBy step).or ((w.snapshots c.tag).or (c.readBy step)) := by
  cases hperformed with
  | opened hopen => simp [reloads, committedBy, readBy, (h.opens _ _ _ _ hopen).1]
  | refused hopen => simp [reloads, committedBy, readBy, (h.opens _ _ _ _ hopen).1]
  | missing _ => simp [reloads, committedBy, readBy]
  | turned hr hturn =>
      simp only [reloads, readBy, Bool.false_eq_true, if_false, Option.or_none]
      exact (hcommits _ (List.mem_of_getElem? hr)).turn hr hturn
  | @accessed q _ _ haccess =>
      have hafter : after (b.access q).run w = w' := congrArg (·.2) haccess
      rw [← hafter]
      cases q with
      | reload => simp [reloads, h.drops]
      | get key => simp [reloads, committedBy, readBy, h.looks, toOption_current]
      | properties => simp [reloads, committedBy, readBy, h.looks, toOption_current]

/-- At any time of a session the snapshot is the one that is due. -/
theorem Lawful.session (h : c.Lawful b) (hstart : start.snapshots c.tag = given)
    (hsession : b.Session start steps requests w) :
    w.snapshots c.tag = c.due given steps ∧ ∀ r ∈ requests, c.Commits r.persist := by
  induction hsession with
  | start => exact ⟨hstart.trans due_nil.symm, nofun⟩
  | outside _ hundisturbed ih => exact ⟨(h.outside _ _ hundisturbed).trans ih.1, ih.2⟩
  | snoc _ hrun ih =>
      have hperformed := Backend.performed_of_perform hrun
      refine ⟨?_, hperformed.forall_requests ih.2 ?_ ?_⟩
      · rw [due_concat, ← ih.1]
        exact h.performed ih.2 hperformed
      · intro i r hopen
        exact (h.opens _ _ _ _ hopen).2 r rfl
      · intro r call r' hr hturn
        rw [hturn.persist_eq]
        exact hr

theorem due_look {q : Inquiry} (hq : q ≠ .reload) (hdue : w.snapshots c.tag = c.due given steps) :
    c.due given (steps ++ [⟨requests, w, .access q, result, next, w'⟩]) =
      (c.current w).toOption := by
  rw [due_concat, toOption_current, hdue]
  cases q with
  | reload => exact absurd rfl hq
  | get key => simp [reloads, committedBy, readBy]
  | properties => simp [reloads, committedBy, readBy]

theorem Fails.idle {step : SessionStep ι Inquiry World} (h : c.Fails step) :
    reloads step = false ∧ c.committedBy step = none ∧ c.readBy step = none := by
  obtain ⟨q, hq, hcall, e, he⟩ | ⟨j, hcall, herror⟩ := h
  · cases q with
    | reload => exact absurd rfl hq
    | get key => simp [reloads, committedBy, readBy, hcall, he, Except.toOption]
    | properties => simp [reloads, committedBy, readBy, hcall, he, Except.toOption]
  · refine ⟨?_, committedBy_eq_none fun _ _ => herror, ?_⟩
    · simp [reloads, hcall]
    · simp [readBy, hcall]

/-- In every session that starts in a world, the snapshot is at all times the one that is due. A
look is answered if and only if one is due with this look, and as it says; what fails to read or
to commit leaves the snapshot as it was. -/
structure Serves (c : Cache) (b : Backend ι Inquiry World String)
    (ask : Inquiry → ExceptT ConfigError Act Answer)
    (answer : KeyMap String → Inquiry → Except ConfigError Answer) (start : World)
    (given : Option (KeyMap String)) : Prop where
  kept : ∀ steps requests w, b.Session start steps requests w →
    w.snapshots c.tag = c.due given steps
  answered : ∀ steps requests w, b.Session start steps requests w → ∀ q, q ≠ .reload →
    ∀ a, outcome (ask q).run w = .ok a ↔ ∃ entries, c.due given (steps ++
        [⟨requests, w, .access q, .ok (), requests, after (ask q).run w⟩]) = some entries ∧
      answer entries q = .ok a
  failed : ∀ steps requests w, b.Session start steps requests w → ∀ step ∈ steps, c.Fails step →
    step.left.snapshots c.tag = step.found.snapshots c.tag

theorem Lawful.serves {x : ExceptT ConfigError Act (KeyMap String)}
    {ask : Inquiry → ExceptT ConfigError Act Answer}
    {answer : KeyMap String → Inquiry → Except ConfigError Answer} (h : c.Lawful b)
    (hfills : c.Fills x) (hask : ∀ q, q ≠ .reload →
      ask q = x >>= fun entries => (answer entries q : ExceptT ConfigError Act Answer))
    (hstart : start.snapshots c.tag = given) : c.Serves b ask answer start given := by
  refine ⟨?_, ?_, ?_⟩
  · intro steps requests w hsession
    exact (h.session hstart hsession).1
  · intro steps requests w hsession q hq a
    rw [due_look hq (h.session hstart hsession).1, hask q hq, outcome, hfills.bind]
    exact bind_eq_ok_iff
  · intro steps requests w hsession
    induction hsession with
    | start =>
        intro step hmem
        cases hmem
    | outside _ _ ih => exact ih
    | snoc hsession hrun ih =>
        refine List.forall_mem_append.2 ⟨ih, List.forall_mem_singleton.2 fun hfails => ?_⟩
        obtain ⟨hreload, hcommit, hread⟩ := hfails.idle
        have hperformed := Backend.performed_of_perform hrun
        have hstep := h.performed (h.session hstart hsession).2 hperformed
        simpa [hreload, hcommit, hread] using hstep

end Cache

namespace FileProvider

def cache (p : FileProvider) : Cache := ⟨p.tag, fun w => p.read w.files⟩

theorem fills_entries (p : FileProvider) : p.cache.Fills p.entries := by
  intro w
  have hrun := p.entries_run w
  rw [outcome, after, hrun]
  simp only [Cache.current, cache]
  cases hkept : w.snapshots p.tag with
  | some entries => exact ⟨rfl, hkept⟩
  | none =>
      cases p.read w.files with
      | ok entries => exact ⟨rfl, if_pos rfl⟩
      | error e => exact ⟨rfl, hkept⟩

theorem commits_persist (p : FileProvider) : p.cache.Commits p.persist := by
  intro changes w result w' hrun
  cases persisting_of_run hrun with
  | unread _ => rfl
  | unwritten _ _ => rfl
  | written hread _ => exact ⟨_, hread, if_pos rfl⟩

theorem lawful_cache (p : FileProvider) : p.cache.Lawful p.asCache := by
  refine ⟨fun _ _ hsame => hsame, ?_, ?_, fun w => ?_⟩
  · intro _ w result w' hrun
    change p.openRequest.run.run w = _ at hrun
    rw [openRequest_run] at hrun
    split at hrun
    · cases hrun
      refine ⟨rfl, ?_⟩
      rintro r ⟨⟩
      exact p.commits_persist
    · cases hrun
      exact ⟨rfl, nofun⟩
  · intro q hq w
    change (after (p.ask q >>= fun _ => pure ()).run w).snapshots p.cache.tag = _
    rw [after_discard, p.ask_eq_bind hq, after, p.fills_entries.bind]
    exact (p.fills_entries w).2
  · exact if_pos rfl

end FileProvider

namespace VariableProvider

def ask (p : VariableProvider) : Inquiry → ExceptT ConfigError Act Answer
  | .get key => return .value (← p.toProvider.get key)
  | .properties => return .values (← p.toProvider.properties)
  | .reload => do
    p.reload
    return .done

/-- The answer that follows from the entries, of which one under the empty key is not listed. -/
def answerFrom (entries : KeyMap String) : Inquiry → Except ConfigError Answer :=
  Inquiry.answer name (·.entries.filter (·.1 ≠ "")) entries

/-- A provider of variables with what it has kept of them. It has no change requests. -/
def asCache (p : VariableProvider) : Backend Empty Inquiry World String where
  payload := id
  content w := (w.snapshots p.tag).getD .empty
  openRequest i := nomatch i
  access q := do let _ ← p.ask q
  updates _ := []
  undisturbed w w' := w'.snapshots p.tag = w.snapshots p.tag

/-- A provider of variables keeps the entries of all variables, which it can always read. -/
def cache (p : VariableProvider) : Cache :=
  ⟨p.tag, fun w => .ok (readVariables p.mapping w.assignments)⟩

theorem ask_eq_bind (p : VariableProvider) {q : Inquiry} (h : q ≠ .reload) :
    p.ask q = ExceptT.lift p.entries >>= fun entries =>
      (answerFrom entries q : ExceptT ConfigError Act Answer) := by
  cases q with
  | reload => exact absurd rfl h
  | get key => exact Inquiry.get_eq_bind key _
  | properties => exact Inquiry.properties_eq_bind _

theorem fills_entries (p : VariableProvider) : p.cache.Fills (ExceptT.lift p.entries) := by
  intro w
  have hrun : (ExceptT.lift p.entries : ExceptT ConfigError Act _).run.run w =
      (.ok (p.entries.run w).1, (p.entries.run w).2) := rfl
  rw [outcome, after, hrun, p.entries_run, Cache.current, cache]
  cases hkept : w.snapshots p.tag with
  | some entries => exact ⟨rfl, hkept⟩
  | none => exact ⟨rfl, if_pos rfl⟩

theorem lawful_cache (p : VariableProvider) : p.cache.Lawful p.asCache := by
  refine ⟨fun _ _ hsame => hsame, nofun, fun q hq w => ?_, fun w => if_pos rfl⟩
  change (after (p.ask q >>= fun _ => pure ()).run w).snapshots p.cache.tag = _
  rw [after_discard, p.ask_eq_bind hq, after, p.fills_entries.bind]
  exact (p.fills_entries w).2

end VariableProvider

/-- Whatever is done with a file provider, its requests and its file, and whatever with a provider
of variables and the variables, in whatever order: each of them answers from the snapshot that is
due. A provider of variables may start with given entries. -/
theorem Provider.snapshots_due (file : FileProvider) (environment : VariableProvider) :
    (∀ start, start.snapshots file.tag = none → file.cache.Serves file.asCache file.ask
      (fun entries => file.answerFrom (.ok entries)) start none) ∧
    (∀ start, start.snapshots environment.tag = none →
      environment.cache.Serves environment.asCache environment.ask VariableProvider.answerFrom
        start none) ∧
    ∀ entries w, environment.cache.Serves environment.asCache environment.ask
      VariableProvider.answerFrom (after (environment.fix entries) w) (some entries) := by
  refine ⟨?_, ?_, ?_⟩
  · intro start hstart
    exact file.lawful_cache.serves file.fills_entries (fun q hq => file.ask_eq_bind hq) hstart
  · intro start hstart
    exact environment.lawful_cache.serves environment.fills_entries
      (fun q hq => environment.ask_eq_bind hq) hstart
  · intro entries w
    exact environment.lawful_cache.serves environment.fills_entries
      (fun q hq => environment.ask_eq_bind hq) (if_pos rfl)

namespace Sample

def edit (text : String) (w : World) : World :=
  after (runFiles (FileSystem.write "a.properties" (.text text))) w

def beforeEdit : List (SessionStep Unit Inquiry World) × List (ChangeRequest Act) × World :=
  performAll (readers false).asCache.perform [] (edit "a=1" (World.initial "/work"))
    [.access .properties, .openRequest (), .request 0 (.put "b" "3")]

/-- A commit after the file has been changed, which reads it again. -/
def afterEdit : List (SessionStep Unit Inquiry World) × List (ChangeRequest Act) × World :=
  performAll (readers false).asCache.perform beforeEdit.2.1 (edit "a=2" beforeEdit.2.2)
    [.access (.get "a"), .request 0 .commit]

theorem session_afterEdit : (readers false).asCache.Session (edit "a=1" (World.initial "/work"))
    (beforeEdit.1 ++ afterEdit.1) afterEdit.2.1 (edit "a=9" afterEdit.2.2) := by
  have hbefore : (readers false).asCache.Session (edit "a=1" (World.initial "/work"))
      beforeEdit.1 beforeEdit.2.1 beforeEdit.2.2 := (readers false).asCache.session_performAll _ _
  have hedited : (readers false).asCache.Session (edit "a=1" (World.initial "/work"))
      beforeEdit.1 beforeEdit.2.1 (edit "a=2" beforeEdit.2.2) := hbefore.outside rfl
  exact (hedited.performAll _).outside rfl

def fixedShell : World := after (shell.fix (.ofList [("k", "v")])) (World.initial "/")

/-- A look at the given entries, and at the variables after a reload. -/
def reloaded : List (SessionStep Empty Inquiry World) × List (ChangeRequest Act) × World :=
  performAll shell.asCache.perform [] fixedShell [.access (.get "k"), .access .reload]

/-- What was committed is answered, whatever the file says by then. A provider of variables answers
from given entries until it is reloaded. -/
theorem edited_answered :
    outcome ((readers false).ask (.get "a")).run (edit "a=9" afterEdit.2.2) =
        .ok (.value (some ⟨"a", "2", "plain", .empty⟩)) ∧
      outcome (shell.ask (.get "k")).run fixedShell =
        .ok (.value (some ⟨"k", "v", "environment-properties", .empty⟩)) ∧
      outcome (shell.ask (.get "a.b")).run (reloaded.2.2.setVariable "a_b" (.text "1")) =
        .ok (.value (some ⟨"a.b", "1", "environment-properties", .empty⟩)) := by
  obtain ⟨hfile, -, hfixed⟩ := Provider.snapshots_due (readers false) shell
  refine ⟨?_, ?_, ?_⟩
  · refine ((hfile _ rfl).answered _ _ _ session_afterEdit (.get "a") nofun _).2 ?_
    exact ⟨.ofList [("a", "2"), ("b", "3")], by decide +kernel, rfl⟩
  · refine ((hfixed _ _).answered _ _ _ .start (.get "k") nofun _).2 ?_
    exact ⟨.ofList [("k", "v")], by decide +kernel, rfl⟩
  · have hreloaded : shell.asCache.Session fixedShell reloaded.1 reloaded.2.1 reloaded.2.2 :=
      shell.asCache.session_performAll _ _
    have hset := hreloaded.outside (t := reloaded.2.2.setVariable "a_b" (.text "1")) rfl
    refine ((hfixed _ _).answered _ _ _ hset (.get "a.b") nofun _).2 ?_
    exact ⟨.ofList [("a.b", "1")], by decide +kernel, rfl⟩

end Sample

end LayeredConfig

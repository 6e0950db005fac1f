import LayeredConfig.Proofs.Change.Lifecycle

/-!
Sessions: any number of change requests, open side by side on one backend, among other accesses to
it. A request may be committed long after it was opened, against a content that others have changed
meanwhile; still the content is always what it was at first, with the change sets of the requests
that have been committed, in the order of their commits.
-/

namespace LayeredConfig

variable {ι κ σ β : Type}

/-- What a backend takes as one piece: the changes of a request, or one value that is set or unset
directly. -/
inductive Update (β : Type)
  | changes (c : ChangeSet)
  | set (key : String) (value : β)
  | unset (key : String)

def Update.applyTo (payload : String → β) (content : KeyMap β) : Update β → KeyMap β
  | changes c => c.writeTo payload content
  | set key value => content.insert key value
  | unset key => content.erase key

/-- A backend, with all that can open a request on it or access it otherwise. An access that
succeeds makes the updates that `updates` tells. -/
structure Backend (ι κ σ β : Type) where
  payload : String → β
  content : σ → KeyMap β
  openRequest : ι → ExceptT ConfigError (StateM σ) (ChangeRequest (StateM σ))
  access : κ → ExceptT ConfigError (StateM σ) Unit
  updates : κ → List (Update β)
  undisturbed : σ → σ → Prop

/-- What can happen in a session. Requests are numbered in the order in which they are opened. -/
inductive SessionCall (ι κ : Type)
  | openRequest (i : ι)
  | request (j : Nat) (call : RequestCall)
  | access (k : κ)

abbrev SessionStep (ι κ σ : Type) := Step (List (ChangeRequest (StateM σ))) (SessionCall ι κ) σ

namespace Backend

def perform (b : Backend ι κ σ β) (requests : List (ChangeRequest (StateM σ))) :
    SessionCall ι κ → StateM σ (Except ConfigError Unit × List (ChangeRequest (StateM σ)))
  | .openRequest i => do
    match ← (b.openRequest i).run with
    | .ok r => return (.ok (), requests ++ [r])
    | .error e => return (.error e, requests)
  | .request j call =>
    match requests[j]? with
    | some r => do
      let answer ← r.perform call
      return (answer.1, requests.set j answer.2)
    | none => return (.error (.requestClosed Tag.masked ""), requests)
  | .access k => do return (← (b.access k).run, requests)

/-- The sessions of a backend: calls one after another, and between them whatever leaves the backend
undisturbed. -/
inductive Session (b : Backend ι κ σ β) (start : σ) :
    List (SessionStep ι κ σ) → List (ChangeRequest (StateM σ)) → σ → Prop
  | start : Session b start [] [] start
  | outside {steps requests s t} : Session b start steps requests s → b.undisturbed s t →
      Session b start steps requests t
  | snoc {steps requests s call result next t} : Session b start steps requests s →
      (b.perform requests call).run s = ((result, next), t) →
      Session b start (steps ++ [⟨requests, s, call, result, next, t⟩]) next t

theorem Session.performAll {b : Backend ι κ σ β} {start s : σ} {steps : List (SessionStep ι κ σ)}
    {requests : List (ChangeRequest (StateM σ))} (h : b.Session start steps requests s)
    (calls : List (SessionCall ι κ)) :
    let run := LayeredConfig.performAll b.perform requests s calls
    b.Session start (steps ++ run.1) run.2.1 run.2.2 := by
  refine performAll_induction (P := fun later => b.Session start (steps ++ later)) b.perform ?_
    calls ?_
  · intro later requests s call result next t hsession hstep
    rw [← List.append_assoc]
    exact hsession.snoc hstep
  · rw [List.append_nil]
    exact h

theorem session_performAll (b : Backend ι κ σ β) (start : σ) (calls : List (SessionCall ι κ)) :
    let run := performAll b.perform [] start calls
    b.Session start run.1 run.2.1 run.2.2 := Session.start.performAll calls

/-- Everything that a call can do. A request that is opened is put last, and a call on one request
takes its turn there. -/
inductive Performed (b : Backend ι κ σ β) (requests : List (ChangeRequest (StateM σ))) (s : σ) :
    SessionCall ι κ → Except ConfigError Unit → List (ChangeRequest (StateM σ)) → σ → Prop
  | opened {i r t} : (b.openRequest i).run.run s = (.ok r, t) →
      Performed b requests s (.openRequest i) (.ok ()) (requests ++ [r]) t
  | refused {i e t} : (b.openRequest i).run.run s = (.error e, t) →
      Performed b requests s (.openRequest i) (.error e) requests t
  | accessed {k result t} : (b.access k).run.run s = (result, t) →
      Performed b requests s (.access k) result requests t
  | missing {j call} : requests[j]? = none →
      Performed b requests s (.request j call) (.error (.requestClosed Tag.masked "")) requests s
  | turned {j call r r' result t} : requests[j]? = some r →
      ChangeRequest.Turn r s call result r' t →
      Performed b requests s (.request j call) result (requests.set j r') t

theorem performed_of_perform {b : Backend ι κ σ β} {requests next : List (ChangeRequest (StateM σ))}
    {s t : σ} {call : SessionCall ι κ} {result : Except ConfigError Unit}
    (h : (b.perform requests call).run s = ((result, next), t)) :
    b.Performed requests s call result next t := by
  cases call with
  | openRequest i =>
      rw [perform, run_bind, outcome, after] at h
      cases hopen : (b.openRequest i).run.run s with
      | mk answer u =>
          rw [hopen] at h
          cases answer with
          | error e =>
              cases h
              exact .refused hopen
          | ok r =>
              cases h
              exact .opened hopen
  | access k =>
      rw [perform, run_bind, outcome, after] at h
      cases haccess : (b.access k).run.run s with
      | mk answer u =>
          rw [haccess] at h
          cases h
          exact .accessed haccess
  | request j call =>
      rw [perform] at h
      cases hr : requests[j]? with
      | none =>
          rw [hr] at h
          cases h
          exact .missing hr
      | some r =>
          rw [hr] at h
          cases hperform : (r.perform call).run s with
          | mk answer u =>
              change (r.perform call >>= fun answer =>
                pure (answer.1, requests.set j answer.2)).run s = _ at h
              rw [run_bind, outcome, after, hperform] at h
              cases h
              exact .turned hr (ChangeRequest.turn_of_perform hperform)

/-- What holds of the requests, of one that is opened, and after each turn of one, holds later. -/
theorem Performed.forall_requests {b : Backend ι κ σ β}
    {requests next : List (ChangeRequest (StateM σ))} {s t : σ} {call : SessionCall ι κ}
    {result : Except ConfigError Unit} {P : ChangeRequest (StateM σ) → Prop}
    (h : b.Performed requests s call result next t) (hrequests : ∀ r ∈ requests, P r)
    (hopened : ∀ i r, (b.openRequest i).run.run s = (.ok r, t) → P r)
    (hturned : ∀ r c r', P r → ChangeRequest.Turn r s c result r' t → P r') :
    ∀ r ∈ next, P r := by
  cases h with
  | opened hopen =>
      exact List.forall_mem_append.2
        ⟨hrequests, List.forall_mem_singleton.2 (hopened _ _ hopen)⟩
  | refused _ => exact hrequests
  | accessed _ => exact hrequests
  | missing _ => exact hrequests
  | turned hr hturn =>
      intro r₁ hr₁
      rcases List.mem_or_eq_of_mem_set hr₁ with hmem | rfl
      · exact hrequests r₁ hmem
      · exact hturned _ _ _ (hrequests _ (List.mem_of_getElem? hr)) hturn

def stagedBy (j : Nat) (step : SessionStep ι κ σ) : List Mutation :=
  if step.succeeds then
    match step.call with
    | .request i call => if i = j then call.changes?.getD [] else []
    | _ => []
  else []

def staged (j : Nat) (steps : List (SessionStep ι κ σ)) : ChangeSet :=
  (steps.flatMap (stagedBy j)).foldl .stage .empty

def commits (j : Nat) (step : SessionStep ι κ σ) : Bool :=
  step.succeeds && match step.call with
    | .request i .commit => i = j
    | _ => false

/-- The updates of a step: what was staged before in the request that it commits, or what an access
makes. -/
def updatesOf (b : Backend ι κ σ β) (earlier : List (SessionStep ι κ σ))
    (step : SessionStep ι κ σ) : List (Update β) :=
  if step.succeeds then
    match step.call with
    | .request j .commit => [.changes (staged j earlier)]
    | .access k => b.updates k
    | _ => []
  else []

/-- The updates of steps in their order, after earlier steps. -/
def history (b : Backend ι κ σ β) (earlier : List (SessionStep ι κ σ)) :
    List (SessionStep ι κ σ) → List (Update β)
  | [] => []
  | step :: later => b.updatesOf earlier step ++ b.history (earlier ++ [step]) later

/-- The content after a session that began with a given one. -/
def replay (b : Backend ι κ σ β) (steps : List (SessionStep ι κ σ)) (content : KeyMap β) :
    KeyMap β := (b.history [] steps).foldl (Update.applyTo b.payload) content

variable {b : Backend ι κ σ β}

theorem history_concat (earlier steps : List (SessionStep ι κ σ)) (step : SessionStep ι κ σ) :
    b.history earlier (steps ++ [step]) =
      b.history earlier steps ++ b.updatesOf (earlier ++ steps) step := by
  induction steps generalizing earlier with
  | nil => simp [history]
  | cons first steps ih =>
      rw [List.cons_append, history, history, ih, List.append_assoc, List.append_assoc]
      rfl

theorem replay_concat (steps : List (SessionStep ι κ σ)) (step : SessionStep ι κ σ)
    (content : KeyMap β) : b.replay (steps ++ [step]) content =
      (b.updatesOf steps step).foldl (Update.applyTo b.payload) (b.replay steps content) := by
  rw [replay, history_concat, List.foldl_append]
  rfl

theorem staged_concat (j : Nat) (steps : List (SessionStep ι κ σ)) (step : SessionStep ι κ σ) :
    staged j (steps ++ [step]) = (stagedBy j step).foldl .stage (staged j steps) := by
  rw [staged, List.flatMap_append, List.flatMap_singleton, List.foldl_append]
  rfl

theorem idle {j : Nat} {step : SessionStep ι κ σ}
    (h : ∀ call, step.call = .request j call → ∃ e, step.result = .error e) :
    stagedBy j step = [] ∧ commits j step = false := by
  obtain ⟨requests, s, call, result, next, t⟩ := step
  cases result with
  | error e => exact ⟨rfl, rfl⟩
  | ok _ =>
      cases call with
      | openRequest i => exact ⟨rfl, rfl⟩
      | access k => exact ⟨rfl, rfl⟩
      | request i call =>
          have hij : i ≠ j := by
            rintro rfl
            obtain ⟨e, he⟩ := h call rfl
            cases he
          refine ⟨if_neg hij, ?_⟩
          cases call with
          | commit => exact decide_eq_false hij
          | _ => rfl

theorem stagedBy_ok (j : Nat) (call : RequestCall) (requests next : List (ChangeRequest (StateM σ)))
    (s t : σ) :
    stagedBy (ι := ι) (κ := κ) j ⟨requests, s, .request j call, .ok (), next, t⟩ =
      call.changes?.getD [] := by
  change (if j = j then call.changes?.getD [] else []) = _
  exact if_pos rfl

/-- Among the calls on requests, only a commit counts as one, and only it makes an update. -/
theorem quiet {i j : Nat} {call : RequestCall} (h : call ≠ .commit)
    (earlier : List (SessionStep ι κ σ)) (requests next : List (ChangeRequest (StateM σ)))
    (s t : σ) (result : Except ConfigError Unit) :
    commits (ι := ι) (κ := κ) j ⟨requests, s, .request i call, result, next, t⟩ = false ∧
      b.updatesOf earlier ⟨requests, s, .request i call, result, next, t⟩ = [] := by
  cases result with
  | error e => exact ⟨rfl, rfl⟩
  | ok _ =>
      cases call with
      | commit => exact absurd rfl h
      | _ => exact ⟨rfl, rfl⟩

/-- A routine that succeeds has applied the changes that it got, and one that fails has written
nothing. -/
def Takes (b : Backend ι κ σ β) (ready : σ → Prop)
    (persist : ChangeSet → ExceptT ConfigError (StateM σ) Unit) : Prop :=
  ∀ changes s result t, changes.Proper → ready s → (persist changes).run.run s = (result, t) →
    ready t ∧ b.content t = match result with
      | .ok _ => changes.writeTo b.payload (b.content s)
      | .error _ => b.content s

/-- What a backend keeps to in the states that are ready for it. -/
structure Lawful (b : Backend ι κ σ β) (ready : σ → Prop) : Prop where
  outside : ∀ s t, ready s → b.undisturbed s t → ready t ∧ b.content t = b.content s
  opens : ∀ i s result t, ready s → (b.openRequest i).run.run s = (result, t) →
    ready t ∧ b.content t = b.content s ∧
      ∀ r, result = .ok r → r.state = .opened ∧ r.changes = .empty ∧ b.Takes ready r.persist
  accesses : ∀ k s result t, ready s → (b.access k).run.run s = (result, t) →
    ready t ∧ b.content t = match result with
      | .ok _ => (b.updates k).foldl (Update.applyTo b.payload) (b.content s)
      | .error _ => b.content s

/-- What is known of a request in a session. -/
structure Tracked (b : Backend ι κ σ β) (ready : σ → Prop) (steps : List (SessionStep ι κ σ))
    (j : Nat) (r : ChangeRequest (StateM σ)) : Prop where
  takes : b.Takes ready r.persist
  proper : r.changes.Proper
  staged : r.state = .opened → r.changes = staged j steps
  commits : steps.countP (commits j) = if r.state = .committed then 1 else 0

/-- What is known of a session at any time. A request that is not opened yet has nothing staged. -/
structure Balanced (b : Backend ι κ σ β) (ready : σ → Prop) (start : σ)
    (steps : List (SessionStep ι κ σ)) (requests : List (ChangeRequest (StateM σ))) (s : σ) :
    Prop where
  holds : ready s
  content : b.content s = b.replay steps (b.content start)
  tracked : ∀ j r, requests[j]? = some r → b.Tracked ready steps j r
  unopened : ∀ j, requests[j]? = none →
    Backend.staged j steps = .empty ∧ steps.countP (Backend.commits j) = 0

variable {ready : σ → Prop} {start s t : σ} {steps : List (SessionStep ι κ σ)}
  {requests next : List (ChangeRequest (StateM σ))} {r r' : ChangeRequest (StateM σ)} {j : Nat}

theorem Tracked.concat (h : b.Tracked ready steps j r) {step : SessionStep ι κ σ}
    (hidle : stagedBy j step = [] ∧ Backend.commits j step = false) :
    b.Tracked ready (steps ++ [step]) j r := by
  obtain ⟨hstaged, hcommits⟩ := hidle
  refine ⟨h.takes, h.proper, ?_, ?_⟩
  · rw [staged_concat, hstaged]
    exact h.staged
  · rw [List.countP_append, List.countP_singleton, hcommits, h.commits]
    rfl

theorem Balanced.unopened_concat (h : b.Balanced ready start steps requests s)
    {step : SessionStep ι κ σ} (hnone : requests[j]? = none)
    (hidle : stagedBy j step = [] ∧ Backend.commits j step = false) :
    Backend.staged j (steps ++ [step]) = .empty ∧
      (steps ++ [step]).countP (Backend.commits j) = 0 := by
  obtain ⟨hstaged, hcommits⟩ := hidle
  obtain ⟨hempty, hzero⟩ := h.unopened j hnone
  rw [staged_concat, hstaged, List.countP_append, List.countP_singleton, hcommits, hzero]
  exact ⟨hempty, rfl⟩

theorem Balanced.concat (h : b.Balanced ready start steps requests s) {call : SessionCall ι κ}
    {result : Except ConfigError Unit} (hready : ready t)
    (hidle : ∀ j c, call = .request j c → ∃ e, result = .error e)
    (hcontent : b.content t = (b.updatesOf steps ⟨requests, s, call, result, requests, t⟩).foldl
      (Update.applyTo b.payload) (b.content s)) :
    b.Balanced ready start (steps ++ [⟨requests, s, call, result, requests, t⟩]) requests t := by
  refine ⟨hready, ?_, ?_, ?_⟩
  · rw [hcontent, replay_concat, h.content]
  · intro j r hr
    exact (h.tracked j r hr).concat (Backend.idle (hidle j))
  · intro j hnone
    exact h.unopened_concat hnone (Backend.idle (hidle j))

theorem Balanced.opened (h : b.Balanced ready start steps requests s) {i : ι} (hready : ready t)
    (hcontent : b.content t = b.content s) (hopened : r.state = .opened)
    (hempty : r.changes = .empty) (htakes : b.Takes ready r.persist) :
    b.Balanced ready start
      (steps ++ [⟨requests, s, .openRequest i, .ok (), requests ++ [r], t⟩])
      (requests ++ [r]) t := by
  refine ⟨hready, ?_, ?_, ?_⟩
  · rw [hcontent, replay_concat, h.content]
    rfl
  · intro j r' hr'
    rw [List.getElem?_append] at hr'
    split at hr'
    · exact (h.tracked j r' hr').concat ⟨rfl, rfl⟩
    · rename_i hlength
      have hnone : requests[j]? = none := List.getElem?_eq_none (Nat.le_of_not_lt hlength)
      obtain ⟨hstaged, hzero⟩ := h.unopened j hnone
      obtain rfl : r = r' := List.mem_singleton.1 (List.mem_of_getElem? hr') ▸ rfl
      have htracked : b.Tracked ready steps j r := by
        refine ⟨htakes, hempty ▸ .empty, fun _ => hempty.trans hstaged.symm, ?_⟩
        rw [hzero, hopened]
        rfl
      exact htracked.concat ⟨rfl, rfl⟩
  · intro j hnone
    rw [List.getElem?_eq_none_iff, List.length_append] at hnone
    have hlength : requests.length ≤ j := Nat.le_trans (Nat.le_add_right _ _) hnone
    exact h.unopened_concat (List.getElem?_eq_none hlength) ⟨rfl, rfl⟩

theorem Balanced.called (h : b.Balanced ready start steps requests s) (hr : requests[j]? = some r)
    {call : RequestCall} {result : Except ConfigError Unit} (hready : ready t)
    (htracked : b.Tracked ready
      (steps ++ [⟨requests, s, .request j call, result, requests.set j r', t⟩]) j r')
    (hcontent : b.content t =
      (b.updatesOf steps ⟨requests, s, .request j call, result, requests.set j r', t⟩).foldl
        (Update.applyTo b.payload) (b.content s)) :
    b.Balanced ready start
      (steps ++ [⟨requests, s, .request j call, result, requests.set j r', t⟩])
      (requests.set j r') t := by
  have hlt : j < requests.length := (List.getElem?_eq_some_iff.1 hr).1
  have hidle : ∀ i, i ≠ j → ∀ c, SessionCall.request (ι := ι) (κ := κ) j call = .request i c →
      ∃ e, result = .error e := by
    intro i hij c hcall
    cases hcall
    exact absurd rfl hij
  refine ⟨hready, ?_, ?_, ?_⟩
  · rw [hcontent, replay_concat, h.content]
  · intro i r₁ hr₁
    by_cases hij : i = j
    · subst hij
      rw [List.getElem?_set_self hlt] at hr₁
      cases hr₁
      exact htracked
    · rw [List.getElem?_set_ne (Ne.symm hij)] at hr₁
      exact (h.tracked i r₁ hr₁).concat (Backend.idle (hidle i hij))
  · intro i hnone
    have hij : i ≠ j := by
      rintro rfl
      rw [List.getElem?_set_self hlt] at hnone
      cases hnone
    rw [List.getElem?_set_ne (Ne.symm hij)] at hnone
    exact h.unopened_concat hnone (Backend.idle (hidle i hij))

/-- What one call on a request does to it, to its record and to the content. -/
theorem Tracked.turn (h : b.Tracked ready steps j r) (hready : ready s) {call : RequestCall}
    {result : Except ConfigError Unit} (hturn : ChangeRequest.Turn r s call result r' t) :
    ready t ∧
      b.Tracked ready (steps ++ [⟨requests, s, .request j call, result, next, t⟩]) j r' ∧
      b.content t = (b.updatesOf steps ⟨requests, s, .request j call, result, next, t⟩).foldl
        (Update.applyTo b.payload) (b.content s) := by
  cases hturn with
  | looked => exact ⟨hready, h.concat ⟨stagedBy_ok j .look requests next s s, rfl⟩, rfl⟩
  | closed _ _ => exact ⟨hready, h.concat ⟨rfl, rfl⟩, rfl⟩
  | unnamed _ _ => exact ⟨hready, h.concat ⟨rfl, rfl⟩, rfl⟩
  | @staged call changes hopen hcall hkeys =>
      have hcommit : call ≠ .commit := by
        rintro rfl
        cases hcall
      obtain ⟨hcommits, hupdates⟩ :=
        quiet (b := b) (i := j) (j := j) hcommit steps requests next s s (.ok ())
      refine ⟨hready, ⟨h.takes, h.proper.foldl_stage hkeys, ?_, ?_⟩, ?_⟩
      · intro _
        rw [staged_concat, stagedBy_ok, hcall, ← h.staged hopen]
        rfl
      · rw [List.countP_append, List.countP_singleton, hcommits, h.commits]
        rfl
      · rw [hupdates]
        rfl
  | cancelled hopen =>
      refine ⟨hready, ⟨h.takes, .empty, nofun, ?_⟩, rfl⟩
      rw [List.countP_append, h.commits, hopen]
      rfl
  | committed hopen hpersist =>
      obtain ⟨hready', hcontent⟩ := h.takes _ _ _ _ h.proper hready hpersist
      have hcommits : Backend.commits j (⟨requests, s, .request j .commit, .ok (), next, t⟩ :
          SessionStep ι κ σ) = true := decide_eq_true rfl
      refine ⟨hready', ⟨h.takes, .empty, nofun, ?_⟩, ?_⟩
      · rw [List.countP_append, List.countP_singleton, hcommits, h.commits, hopen]
        rfl
      · rw [hcontent, h.staged hopen]
        rfl
  | failed hopen hpersist =>
      obtain ⟨hready', hcontent⟩ := h.takes _ _ _ _ h.proper hready hpersist
      exact ⟨hready', h.concat ⟨rfl, rfl⟩, hcontent⟩

theorem Balanced.perform (h : b.Balanced ready start steps requests s) (hlawful : b.Lawful ready)
    {call : SessionCall ι κ} {result : Except ConfigError Unit}
    (hrun : (b.perform requests call).run s = ((result, next), t)) :
    b.Balanced ready start (steps ++ [⟨requests, s, call, result, next, t⟩]) next t := by
  cases performed_of_perform hrun with
  | opened hopen =>
      obtain ⟨hready, hcontent, hopened⟩ := hlawful.opens _ _ _ _ h.holds hopen
      obtain ⟨hstate, hempty, htakes⟩ := hopened _ rfl
      exact h.opened hready hcontent hstate hempty htakes
  | refused hopen =>
      obtain ⟨hready, hcontent, -⟩ := hlawful.opens _ _ _ _ h.holds hopen
      refine h.concat hready ?_ hcontent
      intro j c hrequest
      cases hrequest
  | accessed haccess =>
      obtain ⟨hready, hcontent⟩ := hlawful.accesses _ _ _ _ h.holds haccess
      refine h.concat hready ?_ ?_
      · intro j c hrequest
        cases hrequest
      · cases result with
        | error e => exact hcontent
        | ok _ => exact hcontent
  | missing _ => exact h.concat h.holds (fun _ _ _ => ⟨_, rfl⟩) rfl
  | turned hr hturn =>
      obtain ⟨hready, htracked, hcontent⟩ := (h.tracked _ _ hr).turn h.holds hturn
      exact h.called hr hready htracked hcontent

theorem Session.balanced (hlawful : b.Lawful ready) (hstart : ready start)
    (h : b.Session start steps requests s) : b.Balanced ready start steps requests s := by
  induction h with
  | start =>
      refine ⟨hstart, rfl, ?_, fun _ _ => ⟨rfl, rfl⟩⟩
      intro j r hr
      cases hr
  | outside _ hundisturbed ih =>
      obtain ⟨hready, hcontent⟩ := hlawful.outside _ _ ih.holds hundisturbed
      exact ⟨hready, hcontent.trans ih.content, ih.tracked, ih.unopened⟩
  | snoc _ hrun ih => exact ih.perform hlawful hrun

/-- A request that has proper changes, and whose routine keeps what holds if it gets such. -/
structure Harmless (inv : σ → Prop) (r : ChangeRequest (StateM σ)) : Prop where
  proper : r.changes.Proper
  persists : ∀ changes s result t, changes.Proper → inv s →
    (r.persist changes).run.run s = (result, t) → inv t

/-- What holds of the state is kept by whatever happens in a session. -/
structure Preserves (b : Backend ι κ σ β) (inv : σ → Prop) : Prop where
  outside : ∀ s t, inv s → b.undisturbed s t → inv t
  opens : ∀ i s result t, inv s → (b.openRequest i).run.run s = (result, t) →
    inv t ∧ ∀ r, result = .ok r → Harmless inv r
  accesses : ∀ k s result t, inv s → (b.access k).run.run s = (result, t) → inv t

variable {inv : σ → Prop}

theorem Harmless.turn (h : Harmless inv r) (hs : inv s) {call : RequestCall}
    {result : Except ConfigError Unit} (hturn : ChangeRequest.Turn r s call result r' t) :
    inv t ∧ Harmless inv r' := by
  cases hturn with
  | looked => exact ⟨hs, h⟩
  | closed _ _ => exact ⟨hs, h⟩
  | unnamed _ _ => exact ⟨hs, h⟩
  | staged _ _ hkeys => exact ⟨hs, h.proper.foldl_stage hkeys, h.persists⟩
  | cancelled _ => exact ⟨hs, .empty, h.persists⟩
  | committed _ hpersist => exact ⟨h.persists _ _ _ _ h.proper hs hpersist, .empty, h.persists⟩
  | failed _ hpersist => exact ⟨h.persists _ _ _ _ h.proper hs hpersist, h⟩

theorem Preserves.perform (h : b.Preserves inv) (hs : inv s)
    (hrequests : ∀ r ∈ requests, Harmless inv r) {call : SessionCall ι κ}
    {result : Except ConfigError Unit}
    (hrun : (b.perform requests call).run s = ((result, next), t)) :
    inv t ∧ ∀ r ∈ next, Harmless inv r := by
  have hperformed := performed_of_perform hrun
  refine ⟨?_, hperformed.forall_requests hrequests ?_ ?_⟩
  · cases hperformed with
    | opened hopen => exact (h.opens _ _ _ _ hs hopen).1
    | refused hopen => exact (h.opens _ _ _ _ hs hopen).1
    | accessed haccess => exact h.accesses _ _ _ _ hs haccess
    | missing _ => exact hs
    | turned hr hturn => exact ((hrequests _ (List.mem_of_getElem? hr)).turn hs hturn).1
  · intro i r hopen
    exact (h.opens _ _ _ _ hs hopen).2 r rfl
  · intro r c r' hr hturn
    exact (hr.turn hs hturn).2

/-- What everything in a session keeps holds at all times. -/
theorem Session.invariant (h : b.Session start steps requests s) (hpreserves : b.Preserves inv)
    (hstart : inv start) : inv s := by
  suffices hall : inv s ∧ ∀ r ∈ requests, Harmless inv r from hall.1
  induction h with
  | start => exact ⟨hstart, nofun⟩
  | outside _ hundisturbed ih => exact ⟨hpreserves.outside _ _ ih.1 hundisturbed, ih.2⟩
  | snoc _ hrun ih => exact hpreserves.perform ih.1 ih.2 hrun

/-- At any time of a session the content is what its history makes of the first one, and a request
is committed at most once. -/
def Replays (b : Backend ι κ σ β) (ready : σ → Prop) : Prop :=
  ∀ start, ready start → ∀ steps requests s, b.Session start steps requests s →
    b.content s = b.replay steps (b.content start) ∧ ∀ j, steps.countP (commits j) ≤ 1

theorem Lawful.replays (h : b.Lawful ready) : b.Replays ready := by
  intro start hstart steps requests s hsession
  have hbalanced := hsession.balanced h hstart
  refine ⟨hbalanced.content, ?_⟩
  intro j
  cases hr : requests[j]? with
  | none =>
      rw [(hbalanced.unopened j hr).2]
      exact Nat.zero_le 1
  | some r =>
      rw [(hbalanced.tracked j r hr).commits]
      split
      · exact Nat.le_refl 1
      · exact Nat.zero_le 1

end Backend

end LayeredConfig

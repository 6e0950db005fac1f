import LayeredConfig.Mutable
import LayeredConfig.Proofs.Change.Lifecycle
import LayeredConfig.Proofs.Change.Routing
import LayeredConfig.Proofs.Provider.Opening

/-!
Staging through a configuration. A call routes its changes one after another; the provider at each
index on the way takes the change into its request, which it opens first if it has none. `TakesAll`
says what staging along some routes leaves; `Staged` says how far a call gets, and `Turn` everything
that a call can do.
-/

namespace LayeredConfig

variable {m : Type → Type} {σ : Type}

def MutableCall.NamesEmpty (call : MutableCall) : Prop := ∃ change ∈ call.changes, change.key = ""

theorem ChangeRequest.stage_eq {r : ChangeRequest m} (hopen : r.state = .opened)
    {change : Mutation} (hkey : change.key ≠ "") : r.stage change = .ok (r.staging [change]) := by
  cases change with
  | put key value =>
      change key ≠ "" at hkey
      rw [stage, put, requireOpen_of_opened hopen, ConfigError.requireKey_ok hkey]
      rfl
  | remove key =>
      have hkeys : requireKeys [key] = .ok () :=
        requireKeys_eq_ok (List.forall_mem_singleton.2 hkey)
      rw [stage, remove, requireOpen_of_opened hopen, hkeys]
      rfl

namespace Mutable

theorem request?_setRequest (i j : Nat) (r : ChangeRequest m) (l : List (Nat × ChangeRequest m)) :
    request? j (setRequest i r l) = if i = j then some r else request? j l := by
  induction l with
  | nil => simp [setRequest, request?]
  | cons q l ih =>
      obtain ⟨k, q⟩ := q
      rw [setRequest]
      split
      · rfl
      · split
        · rename_i hik
          subst hik
          simp only [request?]
          split <;> rfl
        · rename_i hik
          simp only [request?, ih]
          split
          · rename_i hkj
            subst hkj
            rw [if_neg hik]
          · rfl

theorem mem_setRequest {i : Nat} {r : ChangeRequest m} {l : List (Nat × ChangeRequest m)}
    {q : Nat × ChangeRequest m} (h : q ∈ setRequest i r l) : q = (i, r) ∨ q ∈ l := by
  induction l with
  | nil => exact .inl (List.mem_singleton.1 h)
  | cons p l ih =>
      rw [setRequest] at h
      split at h
      · exact List.mem_cons.1 h
      · split at h
        · exact (List.mem_cons.1 h).imp id (List.mem_cons_of_mem p)
        · rcases List.mem_cons.1 h with rfl | h
          · exact .inr List.mem_cons_self
          · exact (ih h).imp id (List.mem_cons_of_mem p)

def Ordered (l : List (Nat × ChangeRequest m)) : Prop := l.Pairwise fun p q => p.1 < q.1

theorem Ordered.setRequest {l : List (Nat × ChangeRequest m)} (h : Ordered l) (i : Nat)
    (r : ChangeRequest m) : Ordered (setRequest i r l) := by
  induction l with
  | nil => exact List.pairwise_singleton _ _
  | cons p l ih =>
      obtain ⟨hp, hl⟩ := List.pairwise_cons.1 h
      rw [Mutable.setRequest]
      split
      · rename_i hlt
        refine List.pairwise_cons.2 ⟨fun q hq => ?_, h⟩
        rcases List.mem_cons.1 hq with rfl | hq
        · exact hlt
        · exact Nat.lt_trans hlt (hp q hq)
      · split
        · rename_i heq
          exact List.pairwise_cons.2 ⟨fun q hq => heq ▸ hp q hq, hl⟩
        · refine List.pairwise_cons.2 ⟨fun q hq => ?_, ih hl⟩
          rcases mem_setRequest hq with rfl | hq
          · change p.1 < i
            omega
          · exact hp q hq

theorem request?_eq_some_iff {l : List (Nat × ChangeRequest m)} (h : Ordered l) {i : Nat}
    {r : ChangeRequest m} : request? i l = some r ↔ (i, r) ∈ l := by
  induction l with
  | nil => simp [request?]
  | cons p l ih =>
      obtain ⟨j, q⟩ := p
      obtain ⟨hp, hl⟩ := List.pairwise_cons.1 h
      rw [request?, List.mem_cons]
      split
      · rename_i hji
        subst hji
        constructor
        · intro hr
          cases hr
          exact .inl rfl
        · rintro (hr | hmem)
          · cases hr
            rfl
          · exact absurd (hp _ hmem) (Nat.lt_irrefl j)
      · rename_i hji
        rw [ih hl]
        constructor
        · exact .inr
        · rintro (hr | hmem)
          · cases hr
            exact absurd rfl hji
          · exact hmem

theorem mem_indices_iff {l : List (Nat × ChangeRequest m)} (h : Ordered l) {i : Nat} :
    i ∈ l.map (·.1) ↔ request? i l ≠ none := by
  rw [List.mem_map, Option.ne_none_iff_exists']
  constructor
  · rintro ⟨⟨i, r⟩, hmem, rfl⟩
    exact ⟨r, (request?_eq_some_iff h).2 hmem⟩
  · rintro ⟨r, hr⟩
    exact ⟨(i, r), (request?_eq_some_iff h).1 hr, rfl⟩

/-- What is staged, with the request of one provider replaced or added. -/
def hold (mc : Mutable m) (i : Nat) (r : ChangeRequest m) : Mutable m :=
  { mc with requests := setRequest i r mc.requests }

theorem requestFor_of_some [Monad m] {mc : Mutable m} {i : Nat} {r : ChangeRequest m}
    (h : request? i mc.requests = some r) : mc.requestFor i = pure r := by
  rw [requestFor, h]

theorem requestFor_congr [Monad m] {mc mc' : Mutable m} {i : Nat}
    (hrequest : request? i mc.requests = request? i mc'.requests)
    (hwritables : mc.writables = mc'.writables) (hcorrelation : mc.correlation = mc'.correlation) :
    mc.requestFor i = mc'.requestFor i := by
  rw [requestFor, requestFor, hrequest, hwritables, hcorrelation]

theorem opened_of_requestFor {mc : Mutable (StateM σ)} {i : Nat}
    (hnone : request? i mc.requests = none) {s : σ} {r : ChangeRequest (StateM σ)}
    (h : outcome (mc.requestFor i).run s = .ok r) :
    ∃ p access r₀, mc.writables[i]? = some p ∧ p.access = some access ∧
      outcome access.openRequest.run s = .ok r₀ ∧ r = r₀.correlated mc.correlation := by
  rw [requestFor, hnone] at h
  cases hp : mc.writables[i]? with
  | none =>
      rw [hp] at h
      cases h
  | some p =>
      rw [hp] at h
      dsimp only at h
      cases haccess : p.access with
      | none =>
          rw [haccess] at h
          cases h
      | some access =>
          rw [haccess] at h
          change outcome (access.openRequest.run >>= ExceptT.bindCont _) s = _ at h
          rw [outcome, run_bind] at h
          cases hr : outcome access.openRequest.run s with
          | error e =>
              rw [hr] at h
              cases h
          | ok r₀ =>
              rw [hr] at h
              cases h
              exact ⟨p, access, r₀, rfl, haccess, hr, rfl⟩

/-- A request is for the backend of the writable provider at an index. -/
def Holds (mc : Mutable (StateM σ)) (i : Nat) (r : ChangeRequest (StateM σ)) : Prop :=
  ∃ p, mc.writables[i]? = some p ∧ p.HasBackend r.backend

/-- The providers open fresh requests, and the requests are open, in order, and for the backends of
their providers. -/
structure Sound (mc : Mutable (StateM σ)) : Prop where
  fresh : ∀ p ∈ mc.writables, p.OpensFresh
  opened : ∀ q ∈ mc.requests, q.2.state = .opened
  ordered : Ordered mc.requests
  held : ∀ q ∈ mc.requests, mc.Holds q.1 q.2

theorem Sound.of_requestFor {mc : Mutable (StateM σ)} (h : mc.Sound) {i : Nat} {s : σ}
    {r : ChangeRequest (StateM σ)} (hr : outcome (mc.requestFor i).run s = .ok r) :
    r.state = .opened ∧ mc.Holds i r := by
  cases hrequest : request? i mc.requests with
  | some r' =>
      rw [requestFor_of_some hrequest] at hr
      cases hr
      have hmem : (i, r) ∈ mc.requests := (request?_eq_some_iff h.ordered).1 hrequest
      exact ⟨h.opened (i, r) hmem, h.held (i, r) hmem⟩
  | none =>
      obtain ⟨p, access, r₀, hp, haccess, hr₀, rfl⟩ := Mutable.opened_of_requestFor hrequest hr
      obtain ⟨hopen, -, hbackend⟩ := h.fresh p (List.mem_of_getElem? hp) access haccess s r₀ hr₀
      exact ⟨hopen, p, hp, access, haccess, s, hbackend⟩

/-- What staging leaves as it is. -/
structure Frame (mc next : Mutable (StateM σ)) : Prop where
  configuration : next.configuration = mc.configuration
  policy : next.policy = mc.policy
  writables : next.writables = mc.writables
  correlation : next.correlation = mc.correlation

def Takes (mc : Mutable (StateM σ)) (route : Nat × Mutation) (next : Mutable (StateM σ)) : Prop :=
  ∃ s r, outcome (mc.requestFor route.1).run s = .ok r ∧
    next = mc.hold route.1 (r.staging [route.2])

/-- The providers along some routes take the changes, one after another. -/
inductive TakesAll : Mutable (StateM σ) → List (Nat × Mutation) → Mutable (StateM σ) → Prop
  | nil {mc} : TakesAll mc [] mc
  | cons {mc mid next route routes} : Takes mc route mid → TakesAll mid routes next →
      TakesAll mc (route :: routes) next

/-- How far staging along some routes gets: all the way, or to a provider that fails to open a
request. What is staged before it stays. -/
inductive Staged (mc : Mutable (StateM σ)) (routes : List (Nat × Mutation)) :
    Except ConfigError Unit → Mutable (StateM σ) → Prop
  | all {next} : TakesAll mc routes next → Staged mc routes (.ok ()) next
  | stuck {front i change back next e} : routes = front ++ (i, change) :: back →
      TakesAll mc front next → (∃ s, outcome (next.requestFor i).run s = .error e) →
      Staged mc routes (.error e) next

variable {mc mid next : Mutable (StateM σ)}

theorem TakesAll.append {front back : List (Nat × Mutation)} (h : TakesAll mc front mid)
    (h' : TakesAll mid back next) : TakesAll mc (front ++ back) next := by
  induction h with
  | nil => exact h'
  | cons hfirst _ ih => exact .cons hfirst (ih h')

theorem Staged.append {front back : List (Nat × Mutation)} {result : Except ConfigError Unit}
    (h : TakesAll mc front mid) (h' : Staged mid back result next) :
    Staged mc (front ++ back) result next := by
  cases h' with
  | all hback => exact .all (h.append hback)
  | stuck hsplit hback hfail =>
      rw [hsplit, ← List.append_assoc]
      exact .stuck rfl (h.append hback) hfail

theorem Staged.append_right {front : List (Nat × Mutation)} {e : ConfigError}
    (h : Staged mc front (.error e) next) (back : List (Nat × Mutation)) :
    Staged mc (front ++ back) (.error e) next := by
  cases h with
  | stuck hsplit hfront hfail =>
      rw [hsplit, List.append_assoc]
      exact .stuck rfl hfront hfail

theorem Frame.trans (h : Frame mc mid) (h' : Frame mid next) : Frame mc next :=
  ⟨h'.configuration.trans h.configuration, h'.policy.trans h.policy,
    h'.writables.trans h.writables, h'.correlation.trans h.correlation⟩

theorem Frame.eq_of_requests (h : Frame mc next) (hrequests : next.requests = mc.requests) :
    next = mc := by
  obtain ⟨configuration, policy, writables, requests, correlation⟩ := mc
  obtain ⟨hconfiguration, hpolicy, hwritables, hcorrelation⟩ := h
  cases next
  cases hconfiguration
  cases hpolicy
  cases hwritables
  cases hcorrelation
  cases hrequests
  rfl

theorem Takes.frame {route : Nat × Mutation} (h : Takes mc route next) : Frame mc next := by
  obtain ⟨s, r, -, rfl⟩ := h
  exact ⟨rfl, rfl, rfl, rfl⟩

theorem TakesAll.frame {routes : List (Nat × Mutation)} (h : TakesAll mc routes next) :
    Frame mc next := by
  induction h with
  | nil => exact ⟨rfl, rfl, rfl, rfl⟩
  | cons hfirst _ ih => exact hfirst.frame.trans ih

theorem Sound.takes (h : mc.Sound) {route : Nat × Mutation} (htakes : Takes mc route next) :
    next.Sound := by
  obtain ⟨s, r, hr, rfl⟩ := htakes
  obtain ⟨hopen, hholds⟩ := h.of_requestFor hr
  refine ⟨h.fresh, ?_, h.ordered.setRequest _ _, ?_⟩
  · intro q hq
    rcases mem_setRequest hq with rfl | hq
    · exact hopen
    · exact h.opened q hq
  · intro q hq
    rcases mem_setRequest hq with rfl | hq
    · exact hholds
    · exact h.held q hq

theorem Sound.takesAll (h : mc.Sound) {routes : List (Nat × Mutation)}
    (htakes : TakesAll mc routes next) : next.Sound := by
  induction htakes with
  | nil => exact h
  | cons hfirst _ ih => exact ih (h.takes hfirst)

/-- What staging along some routes leaves in the request at an index: nothing new, or all changes
that are routed to it, after what was staged before. -/
theorem TakesAll.request?_eq {routes : List (Nat × Mutation)} (h : TakesAll mc routes next)
    (i : Nat) :
    changesAt i routes = [] ∧ request? i next.requests = request? i mc.requests ∨
      changesAt i routes ≠ [] ∧ ∃ s r, outcome (mc.requestFor i).run s = .ok r ∧
        request? i next.requests = some (r.staging (changesAt i routes)) := by
  induction h with
  | nil => exact .inl ⟨rfl, rfl⟩
  | @cons mc mid next route routes hfirst _ ih =>
      obtain ⟨j, change⟩ := route
      obtain ⟨s, r, hr, rfl⟩ := hfirst
      have hhold : request? i (mc.hold j (r.staging [change])).requests = _ :=
        request?_setRequest j i _ mc.requests
      rw [changesAt_cons]
      -- The request that the first route leaves at its index is the one that the others find.
      by_cases hj : j = i
      · subst hj
        rw [if_pos rfl] at hhold ⊢
        refine .inr ⟨List.cons_ne_nil _ _, s, r, hr, ?_⟩
        rcases ih with ⟨hnone, hsame⟩ | ⟨-, s', r', hr', hmore⟩
        · rw [hsame, hhold, hnone]
        · rw [requestFor_of_some hhold] at hr'
          cases hr'
          exact hmore
      · rw [if_neg hj] at hhold ⊢
        have hfor : (mc.hold j (r.staging [change])).requestFor i = mc.requestFor i :=
          requestFor_congr hhold rfl rfl
        rw [hhold, hfor] at ih
        exact ih

theorem stageAt_cons_run (mc : Mutable (StateM σ)) (change : Mutation) (i : Nat) (l : List Nat)
    (s : σ) : (mc.stageAt change (i :: l)).run s =
      match outcome (mc.requestFor i).run s with
      | .error e => ((.error e, mc), after (mc.requestFor i).run s)
      | .ok r =>
        match r.stage change with
        | .error e => ((.error e, mc.hold i r), after (mc.requestFor i).run s)
        | .ok r => ((mc.hold i r).stageAt change l).run (after (mc.requestFor i).run s) := by
  rw [stageAt, run_bind]
  cases outcome (mc.requestFor i).run s with
  | error e => rfl
  | ok r =>
      dsimp only
      cases r.stage change with
      | error e => rfl
      | ok r => rfl

theorem staged_of_stageAt (h : mc.Sound) {change : Mutation} (hkey : change.key ≠ "")
    {l : List Nat} {s t : σ} {result : Except ConfigError Unit}
    (hrun : (mc.stageAt change l).run s = ((result, next), t)) :
    Staged mc (l.map (·, change)) result next := by
  induction l generalizing mc s with
  | nil =>
      cases hrun
      exact .all .nil
  | cons i l ih =>
      rw [stageAt_cons_run] at hrun
      cases hr : outcome (mc.requestFor i).run s with
      | error e =>
          rw [hr] at hrun
          cases hrun
          have hsplit : (i :: l).map (·, change) = [] ++ (i, change) :: l.map (·, change) := rfl
          exact .stuck hsplit .nil ⟨s, hr⟩
      | ok r =>
          rw [hr] at hrun
          dsimp only at hrun
          rw [ChangeRequest.stage_eq (h.of_requestFor hr).1 hkey] at hrun
          have htakes : Takes mc (i, change) (mc.hold i (r.staging [change])) := ⟨s, r, hr, rfl⟩
          exact Staged.append (.cons htakes .nil) (ih (h.takes htakes) hrun)

def routes (mc : Mutable m) (changes : List Mutation) : List (Nat × Mutation) :=
  mc.policy.routes (mc.writables.map (·.target)) changes

/-- Everything that a call can do to what is staged. -/
inductive Turn (mc : Mutable (StateM σ)) (call : MutableCall) :
    Except ConfigError Unit → Mutable (StateM σ) → Prop
  | unnamed : call.NamesEmpty → Turn mc call (.error (.argument .emptyKey)) mc
  | staged {result next} : ¬ call.NamesEmpty → Staged mc (mc.routes call.changes) result next →
      Turn mc call result next

theorem staged_of_routeAll (h : mc.Sound) {changes : List Mutation}
    (hkeys : ∀ change ∈ changes, change.key ≠ "") {s t : σ} {result : Except ConfigError Unit}
    (hrun : (mc.routeAll changes).run s = ((result, next), t)) :
    Staged mc (mc.routes changes) result next := by
  induction changes generalizing mc s with
  | nil =>
      cases hrun
      exact .all .nil
  | cons change changes ih =>
      obtain ⟨hkey, hkeys⟩ := List.forall_mem_cons.1 hkeys
      rw [routeAll, run_bind] at hrun
      cases hroute : (mc.route change).run s with
      | mk answer u =>
          obtain ⟨result', mid⟩ := answer
          have hstaged : Staged mc _ result' mid := staged_of_stageAt h hkey hroute
          rw [outcome, after, hroute] at hrun
          cases hstaged with
          | all hall =>
              have hlater := ih (h.takesAll hall) hkeys hrun
              rw [routes, hall.frame.policy, hall.frame.writables] at hlater
              exact hlater.append hall
          | stuck hsplit hfront hfail =>
              cases hrun
              exact Staged.append_right (.stuck hsplit hfront hfail) _

theorem turn_of_perform (h : mc.Sound) {call : MutableCall} {s t : σ}
    {result : Except ConfigError Unit} (hrun : (mc.perform call).run s = ((result, next), t)) :
    Turn mc call result next := by
  rw [perform_eq_stage, stage] at hrun
  by_cases hempty : call.NamesEmpty
  · obtain ⟨change, hmem, hkey⟩ := hempty
    have hkeys : ChangeRequest.requireKeys (call.changes.map (·.key)) = _ :=
      ChangeRequest.requireKeys_eq_error (List.mem_map.2 ⟨change, hmem, hkey⟩)
    rw [hkeys] at hrun
    cases hrun
    exact .unnamed ⟨change, hmem, hkey⟩
  · have hnamed : ∀ change ∈ call.changes, change.key ≠ "" :=
      fun change hmem hkey => hempty ⟨change, hmem, hkey⟩
    have hkeys : ChangeRequest.requireKeys (call.changes.map (·.key)) = .ok () :=
      ChangeRequest.requireKeys_eq_ok (List.forall_mem_map.2 hnamed)
    rw [hkeys] at hrun
    exact .staged hempty (staged_of_routeAll h hnamed hrun)

theorem Turn.takesAll {call : MutableCall} {result : Except ConfigError Unit}
    (h : Turn mc call result next) :
    ∃ routes, TakesAll mc routes next ∧ routes ⊆ mc.routes call.changes := by
  cases h with
  | unnamed _ => exact ⟨[], .nil, List.nil_subset _⟩
  | staged _ hstaged =>
      cases hstaged with
      | all hall => exact ⟨_, hall, fun _ hroute => hroute⟩
      | stuck hsplit hfront _ =>
          rw [hsplit]
          exact ⟨_, hfront, List.subset_append_left _ _⟩

def Accepted (ps : List (Provider (StateM σ))) (route : Nat × Mutation) : Prop :=
  ∃ p, ps[route.1]? = some p ∧ p.target.accepts route.2 = true

theorem accepted_of_mem_routes {changes : List Mutation} {route : Nat × Mutation}
    (h : route ∈ mc.routes changes) : Accepted mc.writables route := by
  obtain ⟨change, -, hselect⟩ := List.mem_flatMap.1 h
  obtain ⟨i, hi, rfl⟩ := List.mem_map.1 hselect
  have hpasses := Policy.passes_of_mem_select hi
  rw [Policy.passes, List.getElem?_map, Option.any_map] at hpasses
  obtain ⟨p, hp, haccepts⟩ := (Option.any_eq_true _ _).1 hpasses
  exact ⟨p, hp, haccepts⟩

theorem sound_create {correlation : Tag} {c : Configuration (StateM σ)} {policy : Policy}
    (hfresh : ∀ p ∈ (create correlation c policy).writables, p.OpensFresh) :
    (create correlation c policy).Sound := ⟨hfresh, nofun, .nil, nofun⟩

/-- What a run of calls leaves is what staging along some routes leaves, on which every change goes
to a provider that accepts it. -/
theorem accepted_of_run {start : Mutable (StateM σ)} (hstart : start.Sound)
    {steps : List (Step (Mutable (StateM σ)) MutableCall σ)} (h : Run perform start steps mc) :
    ∃ routes, TakesAll start routes mc ∧ ∀ route ∈ routes, Accepted start.writables route := by
  refine h.invariant (I := fun object => ∃ routes, TakesAll start routes object ∧
    ∀ route ∈ routes, Accepted start.writables route) ⟨[], .nil, nofun⟩ ?_
  rintro object call found result next left ⟨front, hfront, haccepted⟩ hstep
  have hturn := turn_of_perform (hstart.takesAll hfront) hstep
  obtain ⟨back, hback, hrouted⟩ := hturn.takesAll
  refine ⟨front ++ back, hfront.append hback, List.forall_mem_append.2 ⟨haccepted, ?_⟩⟩
  intro route hroute
  rw [← hfront.frame.writables]
  exact accepted_of_mem_routes (hrouted hroute)

theorem takesAll_of_run {start : Mutable (StateM σ)} (hstart : start.Sound)
    {steps : List (Step (Mutable (StateM σ)) MutableCall σ)} (h : Run perform start steps mc) :
    ∃ routes, TakesAll start routes mc :=
  (accepted_of_run hstart h).imp fun _ hroutes => hroutes.1

theorem sound_of_run {c : Configuration (StateM σ)}
    (hfresh : ∀ p ∈ c.context.providers, p.OpensFresh) {correlation : Tag} {policy : Policy}
    {steps : List (Step (Mutable (StateM σ)) MutableCall σ)}
    (h : Run perform (create correlation c policy) steps mc) :
    mc.Sound ∧ ∃ routes, TakesAll (create correlation c policy) routes mc := by
  have hcreate : (create correlation c policy).Sound :=
    sound_create fun p hp => hfresh p (List.mem_filter.1 hp).1
  obtain ⟨routes, htakes⟩ := takesAll_of_run hcreate h
  exact ⟨hcreate.takesAll htakes, routes, htakes⟩

end Mutable

end LayeredConfig

import LayeredConfig.Proofs.Mutable.Store

/-!
What a store does to the backends. Every backend gets the changes that the policy selects its
provider for, as if they had been applied to it one after another; until then, and after a
cancellation, no backend has changed.
-/

namespace LayeredConfig

variable {σ β γ : Type} {payload : String → β} {content : Nat → σ → KeyMap β}

namespace Mutable

variable {mc next : Mutable (StateM σ)}

theorem requestFor_quiet {f : σ → γ} (h : ∀ p ∈ mc.writables, p.OpensQuietly f) (i : Nat) (s : σ) :
    f (after (mc.requestFor i).run s) = f s := by
  rw [requestFor]
  cases request? i mc.requests with
  | some r => rfl
  | none =>
      cases hp : mc.writables[i]? with
      | none => rfl
      | some p =>
          dsimp only
          cases haccess : p.access with
          | none => rfl
          | some access =>
              have hquiet := h p (List.mem_of_getElem? hp) access haccess s
              change f (after (access.openRequest.run >>= ExceptT.bindCont _) s) = f s
              rw [after, run_bind]
              cases outcome access.openRequest.run s with
              | error e => exact hquiet
              | ok r => exact hquiet

theorem stageAt_quiet {f : σ → γ} (h : ∀ p ∈ mc.writables, p.OpensQuietly f) {change : Mutation}
    {l : List Nat} {s t : σ} {result : Except ConfigError Unit}
    (hrun : (mc.stageAt change l).run s = ((result, next), t)) :
    f t = f s ∧ next.writables = mc.writables := by
  induction l generalizing mc s with
  | nil =>
      cases hrun
      exact ⟨rfl, rfl⟩
  | cons i l ih =>
      have hquiet := requestFor_quiet h i s
      rw [stageAt_cons_run] at hrun
      cases hr : outcome (mc.requestFor i).run s with
      | error e =>
          rw [hr] at hrun
          cases hrun
          exact ⟨hquiet, rfl⟩
      | ok r =>
          rw [hr] at hrun
          dsimp only at hrun
          cases hstage : r.stage change with
          | error e =>
              rw [hstage] at hrun
              cases hrun
              exact ⟨hquiet, rfl⟩
          | ok r' =>
              rw [hstage] at hrun
              have hhold : ∀ p ∈ (mc.hold i r').writables, p.OpensQuietly f := h
              obtain ⟨hlater, hwritables⟩ := ih hhold hrun
              exact ⟨hlater.trans hquiet, hwritables⟩

theorem routeAll_quiet {f : σ → γ} (h : ∀ p ∈ mc.writables, p.OpensQuietly f)
    {changes : List Mutation} {s t : σ} {result : Except ConfigError Unit}
    (hrun : (mc.routeAll changes).run s = ((result, next), t)) : f t = f s := by
  induction changes generalizing mc s with
  | nil =>
      cases hrun
      rfl
  | cons change changes ih =>
      rw [routeAll, run_bind] at hrun
      cases hroute : (mc.route change).run s with
      | mk answer u =>
          obtain ⟨result', mid⟩ := answer
          obtain ⟨hfirst, hwritables⟩ := stageAt_quiet h hroute
          rw [outcome, after, hroute] at hrun
          cases result' with
          | error e =>
              cases hrun
              exact hfirst
          | ok _ =>
              rw [← hwritables] at h
              exact (ih h hrun).trans hfirst

theorem perform_quiet {f : σ → γ} (h : ∀ p ∈ mc.writables, p.OpensQuietly f) {call : MutableCall}
    {s t : σ} {result : Except ConfigError Unit}
    (hrun : (mc.perform call).run s = ((result, next), t)) : f t = f s := by
  rw [perform_eq_stage, stage] at hrun
  cases hkeys : ChangeRequest.requireKeys (call.changes.map (·.key)) with
  | error e =>
      rw [hkeys] at hrun
      cases hrun
      rfl
  | ok _ =>
      rw [hkeys] at hrun
      exact routeAll_quiet h hrun

theorem routes_append (mc : Mutable (StateM σ)) (front back : List Mutation) :
    mc.routes (front ++ back) = mc.routes front ++ mc.routes back := List.flatMap_append

theorem takesAll_of_succeeds {start : Mutable (StateM σ)} (hstart : start.Sound)
    {steps : List (Step (Mutable (StateM σ)) MutableCall σ)} (h : Run perform start steps mc)
    (hok : ∀ step ∈ steps, step.succeeds = true) :
    TakesAll start (start.routes (steps.flatMap (·.call.changes))) mc := by
  induction h with
  | nil => exact .nil
  | @snoc steps object found call result next left hrun hstep ih =>
      obtain ⟨hearlier, hlast⟩ := List.forall_mem_append.1 hok
      have htakes := ih hearlier
      obtain rfl : result = .ok () := Step.succeeds_iff.1 (hlast _ (List.mem_singleton.2 rfl))
      rw [List.flatMap_append, routes_append]
      refine htakes.append ?_
      cases turn_of_perform (hstart.takesAll htakes) hstep with
      | staged _ hstaged =>
          cases hstaged with
          | all hall =>
              rw [routes, htakes.frame.policy, htakes.frame.writables] at hall
              rw [List.flatMap_singleton]
              exact hall

/-- The request at an index, when staging began with none: it holds the changes that are routed to
the index, and writes to the content there. -/
theorem request?_of_takesAll {start : Mutable (StateM σ)} (hstart : start.requests = [])
    (hwrites : ∀ i (p : Provider (StateM σ)), start.writables[i]? = some p →
      p.WritesTo payload content i)
    {routes : List (Nat × Mutation)} (h : TakesAll start routes mc) (i : Nat) :
    changesAt i routes = [] ∧ request? i mc.requests = none ∨
      changesAt i routes ≠ [] ∧ ∃ r, request? i mc.requests = some r ∧
        r.changes = (changesAt i routes).foldl .stage .empty ∧ r.WritesTo payload content i := by
  have hnone : request? i start.requests = none := by
    rw [hstart]
    rfl
  refine (h.request?_eq i).imp ?_ ?_
  · rintro ⟨hnil, hsame⟩
    exact ⟨hnil, hsame.trans hnone⟩
  · rintro ⟨hsome, s, r, hr, hrequest⟩
    obtain ⟨p, access, r₀, hp, haccess, hr₀, rfl⟩ := opened_of_requestFor hnone hr
    have hp := hwrites i p hp
    have hempty : r₀.changes = .empty := (hp.fresh access haccess s r₀ hr₀).2.1
    refine ⟨hsome, _, hrequest, ?_, hp.routine access haccess s r₀ hr₀⟩
    rw [← hempty]
    rfl

theorem Persisted.content_eq {l : List (Nat × ChangeRequest (StateM σ))} (hordered : Ordered l)
    (hwrites : ∀ q ∈ l, q.2.WritesTo payload content q.1) {s t : σ}
    (h : Persisted (l.map (·.2)) s t) (j : Nat) :
    content j t =
      match request? j l with
      | none => content j s
      | some r => r.changes.writeTo payload (content j s) := by
  induction l generalizing s with
  | nil =>
      cases h
      rfl
  | cons q l ih =>
      obtain ⟨i, r⟩ := q
      obtain ⟨hi, hl⟩ := List.pairwise_cons.1 hordered
      obtain ⟨hr, hwrites⟩ := List.forall_mem_cons.1 hwrites
      cases h with
      | cons hfirst hlater =>
          have hone := hr r.changes s _ hfirst j
          rw [ih hl hwrites hlater, hone, request?]
          -- The later requests stand at greater indices, so they do not touch this content again.
          by_cases hij : i = j
          · subst hij
            have hnone : request? i l = none := by
              refine Decidable.not_not.1 fun hmem => ?_
              obtain ⟨q, hq, rfl⟩ := List.mem_map.1 ((mem_indices_iff hl).2 hmem)
              exact Nat.lt_irrefl _ (hi q hq)
            rw [hnone, if_pos rfl, if_pos rfl]
          · rw [if_neg hij, if_neg (Ne.symm hij)]

theorem TakesAll.content_of_persisted {start : Mutable (StateM σ)} (hempty : start.requests = [])
    (hwrites : ∀ i (p : Provider (StateM σ)), start.writables[i]? = some p →
      p.WritesTo payload content i)
    {routes : List (Nat × Mutation)} (h : TakesAll start routes mc) (hsound : mc.Sound) {s t : σ}
    (hpersisted : Persisted (mc.requests.map (·.2)) s t) (i : Nat) :
    content i t = (changesAt i routes).foldl (Mutation.writeTo payload) (content i s) := by
  have hrequest := request?_of_takesAll hempty hwrites h
  have hroutines : ∀ q ∈ mc.requests, q.2.WritesTo payload content q.1 := by
    rintro ⟨j, r⟩ hq
    have hr : request? j mc.requests = some r := (request?_eq_some_iff hsound.ordered).2 hq
    rcases hrequest j with ⟨-, hnone⟩ | ⟨-, r', hr', -, hr'writes⟩
    · cases hnone.symm.trans hr
    · cases hr'.symm.trans hr
      exact hr'writes
  rw [hpersisted.content_eq hsound.ordered hroutines]
  rcases hrequest i with ⟨hnil, hnone⟩ | ⟨-, r, hr, hchanges, -⟩
  · rw [hnone, hnil]
    rfl
  · rw [hr]
    dsimp only
    rw [hchanges, ChangeSet.writeTo_foldl_stage, ChangeSet.writeTo_empty]

/-- After a run of successful calls: no backend has changed, and the requests are those of the
providers that the policy has selected, in effective order. A successful store returns their
backends, and does to each backend what the changes that its provider was selected for do one after
another, in the order of the calls; a cancellation touches nothing and drops every request. -/
theorem store_replays {c : Configuration (StateM σ)} (correlation : Tag) (policy : Policy)
    (hwrites : ∀ i (p : Provider (StateM σ)),
      (c.context.providers.filter (·.isWritable))[i]? = some p → p.WritesTo payload content i)
    {steps : List (Step (Mutable (StateM σ)) MutableCall σ)}
    (h : Run perform (create correlation c policy) steps mc)
    (hok : ∀ step ∈ steps, step.succeeds = true) :
    let targets := (c.context.providers.filter (·.isWritable)).map (·.target)
    let selected := policy.selected targets (steps.flatMap (·.call.changes))
    (∀ step ∈ steps, ∀ i, content i step.left = content i step.found) ∧
    ByRank c mc.requests ∧ (∀ i, i ∈ mc.requests.map (·.1) ↔ selected i ≠ []) ∧
    (∀ s uris t, mc.store.run.run s = (.ok uris, t) →
      uris = mc.requests.map (·.2.backend) ∧
      ∀ i, content i t = (selected i).foldl (Mutation.writeTo payload) (content i s)) ∧
    mc.cancel = ⟨mc.requests.map (·.2.backend), []⟩ := by
  intro targets selected
  have hwritables : ∀ p ∈ (create correlation c policy).writables,
      p.OpensFresh ∧ p.OpensQuietly fun s i => content i s := by
    intro p hp
    obtain ⟨i, hi⟩ := List.getElem?_of_mem hp
    exact ⟨(hwrites i p hi).fresh, (hwrites i p hi).quiet⟩
  have hcreate : (create correlation c policy).Sound :=
    sound_create fun p hp => (hwritables p hp).1
  have htakes := takesAll_of_succeeds hcreate h hok
  have hsound : mc.Sound := hcreate.takesAll htakes
  have hopen : ∀ r ∈ mc.requests.map (·.2), r.state = .opened :=
    List.forall_mem_map.2 hsound.opened
  have hselected : ∀ i, changesAt i ((create correlation c policy).routes _) = selected i :=
    policy.changesAt_routes targets _
  refine ⟨?_, byRank_of_takesAll htakes hsound, ?_, ?_, ?_⟩
  · intro step hstep i
    obtain ⟨⟨earlier, hearlier⟩, hrun⟩ := h.step_of_mem step hstep
    obtain ⟨routes, hfront⟩ := takesAll_of_run hcreate hearlier
    refine congrFun (perform_quiet (f := fun s i => content i s) ?_ hrun) i
    rw [hfront.frame.writables]
    exact fun p hp => (hwritables p hp).2
  · intro i
    rw [mem_indices_iff hsound.ordered, ← hselected]
    rcases request?_of_takesAll rfl hwrites htakes i with ⟨hnil, hnone⟩ | ⟨hsome, r, hr, -⟩
    · simp [hnil, hnone]
    · simp [hsome, hr]
  · intro s uris t hstore
    obtain ⟨huris, hpersisted⟩ := (commitAll_eq_ok_iff hopen).1 hstore
    rw [List.nil_append, List.map_map] at huris
    refine ⟨huris, fun i => ?_⟩
    rw [htakes.content_of_persisted rfl hwrites hsound hpersisted, hselected]
  · rw [cancel, cancelAll_of_opened hopen, List.map_map]
    rfl

end Mutable

namespace Sample

def splitting : Policy := .custom 3 fun change _ =>
  match change with
  | .put _ _ => [1, 0]
  | .remove _ => [1]

theorem writesTo_backed (i : Nat) (p : Provider Act)
    (h : ((backed [high, low]).context.providers.filter (·.isWritable))[i]? = some p) :
    p.WritesTo some (fun j w => w.memory j) i := by
  match i with
  | 0 =>
      cases h
      exact high.writesTo id rfl fun _ hj => hj
  | 1 =>
      cases h
      exact low.writesTo id rfl fun _ hj => hj
  | i + 2 => cases h

/-- A value that is put and removed again stays in the backend that is not selected for removals. -/
theorem split_store :
    let run := performAll Mutable.perform (Mutable.create 4 (backed [high, low]) splitting)
      (World.initial "/") [.put "a" "1", .remove ["a"], .putAll [("b", "2")]]
    ∃ t, run.2.1.store.run.run run.2.2 = (.ok ["memory:high", "memory:low"], t) ∧
      (t.memory high.tag).get? "a" = some (some "1") ∧ (t.memory low.tag).get? "a" = none ∧
      (t.memory low.tag).get? "b" = some (some "2") := by
  intro run
  have h : Run Mutable.perform (Mutable.create 4 (backed [high, low]) splitting) run.1 run.2.1 :=
    run_performAll _ _ _ _
  have hok : ∀ step ∈ run.1, step.succeeds = true := List.all_eq_true.1 rfl
  have hsound : run.2.1.Sound := (Mutable.sound_of_run (opensFresh_backed _) h).1
  have hstored : run.2.1.store.run.run run.2.2 = (.ok ["memory:high", "memory:low"], _) :=
    (Mutable.commitAll_eq_ok_iff (List.forall_mem_map.2 hsound.opened)).2
      ⟨rfl, .cons rfl (.cons rfl .nil)⟩
  obtain ⟨-, -, -, hstore, -⟩ := Mutable.store_replays 4 splitting writesTo_backed h hok
  obtain ⟨-, hcontent⟩ := hstore run.2.2 _ _ hstored
  refine ⟨_, hstored, ?_, ?_, ?_⟩
  · rw [hcontent high.tag]
    rfl
  · rw [hcontent low.tag]
    rfl
  · rw [hcontent low.tag]
    rfl

end Sample

end LayeredConfig

import LayeredConfig.Proofs.Lookup.Ranking
import LayeredConfig.Proofs.Mutable.Staging
import Mathlib.Data.List.Forall2

/-!
Storing. The routines of the requests are run one after another, in the effective order of their
providers. The first one that fails ends this: what stands before it is committed, and it and
everything after it is cancelled.
-/

namespace LayeredConfig

variable {σ : Type}

namespace Mutable

variable {mc : Mutable (StateM σ)}

/-- Each request is for the backend of the writable provider at its index, and the requests stand in
the effective order of these providers, no two for one provider. -/
def ByRank (c : Configuration (StateM σ)) (requests : List (Nat × ChangeRequest (StateM σ))) :
    Prop :=
  ∃ holders, List.Forall₂ (fun q p => (c.context.providers.filter (·.isWritable))[q.1]? = some p ∧
      p.HasBackend q.2.backend) requests holders ∧
    holders.Sublist c.context.providers ∧
    ∀ s₀, c.context.providers.Pairwise (Provider.Outranks s₀) →
      holders.Pairwise (Provider.Outranks s₀)

theorem exists_sublist_of_ordered {ps : List (Provider (StateM σ))}
    {l : List (Nat × ChangeRequest (StateM σ))} (h : Ordered l)
    (hheld : ∀ q ∈ l, ∃ p, ps[q.1]? = some p ∧ p.HasBackend q.2.backend) :
    ∃ holders, List.Forall₂ (fun q p => ps[q.1]? = some p ∧ p.HasBackend q.2.backend) l holders ∧
      holders.Sublist ps := by
  suffices hdrop : ∀ n, (∀ q ∈ l, n ≤ q.1) → ∃ holders, List.Forall₂
      (fun q p => ps[q.1]? = some p ∧ p.HasBackend q.2.backend) l holders ∧
        holders.Sublist (ps.drop n) from
    hdrop 0 fun q _ => Nat.zero_le q.1
  -- The induction is on the requests, and the providers before the next index are dropped.
  induction l with
  | nil => exact fun n _ => ⟨[], .nil, List.nil_sublist _⟩
  | cons q l ih =>
      intro n hn
      obtain ⟨hq, hl⟩ := List.pairwise_cons.1 h
      obtain ⟨⟨p, hp, hbackend⟩, hheld⟩ := List.forall_mem_cons.1 hheld
      obtain ⟨holders, hforall, hsublist⟩ := ih hl hheld (q.1 + 1) fun q' hq' => hq q' hq'
      refine ⟨p :: holders, .cons ⟨hp, hbackend⟩ hforall, ?_⟩
      have hdrop : (ps.drop q.1).Sublist (ps.drop n) :=
        List.drop_sublist_drop_left ps (hn q List.mem_cons_self)
      obtain ⟨hlt, rfl⟩ := List.getElem?_eq_some_iff.1 hp
      rw [List.drop_eq_getElem_cons hlt] at hdrop
      exact (hsublist.cons_cons _).trans hdrop

theorem byRank_of_takesAll {correlation : Tag} {c : Configuration (StateM σ)} {policy : Policy}
    {routes : List (Nat × Mutation)} (h : TakesAll (create correlation c policy) routes mc)
    (hsound : mc.Sound) : ByRank c mc.requests := by
  have hwritables : mc.writables = c.context.providers.filter (·.isWritable) := h.frame.writables
  obtain ⟨holders, hholders, hsublist⟩ := exists_sublist_of_ordered hsound.ordered hsound.held
  rw [hwritables] at hholders hsublist
  have hranked : holders.Sublist c.context.providers := hsublist.trans List.filter_sublist
  exact ⟨holders, hholders, hranked, fun s₀ hproviders => hproviders.sublist hranked⟩

theorem cancelAll_of_opened {rs : List (ChangeRequest (StateM σ))}
    (h : ∀ r ∈ rs, r.state = .opened) : cancelAll rs = ⟨rs.map (·.backend), []⟩ := by
  induction rs with
  | nil => rfl
  | cons r rs ih =>
      obtain ⟨hr, hrs⟩ := List.forall_mem_cons.1 h
      have hcancel : r.cancel = .ok (r.close .cancelled) := by
        rw [ChangeRequest.cancel, ChangeRequest.requireOpen_of_opened hr]
        rfl
      rw [cancelAll, ih hrs, hcancel]
      rfl

/-- Routines succeed one after another, each with what is staged in its request. -/
inductive Persisted : List (ChangeRequest (StateM σ)) → σ → σ → Prop
  | nil {s} : Persisted [] s s
  | cons {r rs s t u} : (r.persist r.changes).run.run s = (.ok (), t) → Persisted rs t u →
      Persisted (r :: rs) s u

theorem commit_run {r : ChangeRequest (StateM σ)} (h : r.state = .opened) (s : σ) :
    r.commit.run s =
      match (r.persist r.changes).run.run s with
      | (.ok (), t) => ((.ok (), r.close .committed), t)
      | (.error cause, t) => ((.error cause, r), t) := by
  have hcommit : r.commit = _ := ChangeRequest.perform_commit h
  rw [hcommit, run_bind]
  cases hpersist : (r.persist r.changes).run.run s with
  | mk answer t =>
      rw [outcome, after, hpersist]
      cases answer with
      | error cause => rfl
      | ok _ => rfl

theorem commitAll_cons_run {committed : List String} {r : ChangeRequest (StateM σ)}
    {rs : List (ChangeRequest (StateM σ))} (h : ∀ q ∈ r :: rs, q.state = .opened) (s : σ) :
    (commitAll committed (r :: rs)).run.run s =
      match (r.persist r.changes).run.run s with
      | (.ok (), t) => (commitAll (committed ++ [r.backend]) rs).run.run t
      | (.error cause, t) =>
        (.error (.commitFailed r.backend committed ((r :: rs).map (·.backend)) cause), t) := by
  have hcommit := commit_run (h r List.mem_cons_self) s
  rw [commitAll, ExceptT.run_bind, ExceptT.run_lift, run_bind, outcome, after, StateT.run_map,
    hcommit]
  cases (r.persist r.changes).run.run s with
  | mk answer t =>
      cases answer with
      | error cause =>
          change (Except.error (ConfigError.commitFailed r.backend committed
            (cancelAll (r :: rs)).cancelled cause), t) = _
          rw [cancelAll_of_opened h]
      | ok _ => rfl

/-- The routine of a request fails after those before it have succeeded. -/
def FailsAt (front : List (ChangeRequest (StateM σ))) (r : ChangeRequest (StateM σ))
    (cause : ConfigError) (s t : σ) : Prop :=
  ∃ u, Persisted front s u ∧ (r.persist r.changes).run.run u = (.error cause, t)

theorem commitAll_eq_ok_iff {rs : List (ChangeRequest (StateM σ))}
    (h : ∀ r ∈ rs, r.state = .opened) {committed uris : List String} {s t : σ} :
    (commitAll committed rs).run.run s = (.ok uris, t) ↔
      uris = committed ++ rs.map (·.backend) ∧ Persisted rs s t := by
  induction rs generalizing committed s with
  | nil =>
      rw [List.map_nil, List.append_nil]
      constructor
      · intro hrun
        cases hrun
        exact ⟨rfl, .nil⟩
      · rintro ⟨rfl, hnil⟩
        cases hnil
        rfl
  | cons r rs ih =>
      rw [commitAll_cons_run h]
      cases hpersist : (r.persist r.changes).run.run s with
      | mk answer u =>
          cases answer with
          | error cause =>
              refine ⟨nofun, ?_⟩
              rintro ⟨-, hall⟩
              cases hall with
              | cons hfirst _ => cases hpersist.symm.trans hfirst
          | ok _ =>
              have hrest : ∀ q ∈ rs, q.state = .opened := (List.forall_mem_cons.1 h).2
              refine (ih hrest).trans ?_
              rw [List.append_assoc]
              refine and_congr_right fun _ => ⟨.cons hpersist, ?_⟩
              intro hall
              cases hall with
              | cons hfirst hlater =>
                  cases hpersist.symm.trans hfirst
                  exact hlater

/-- The first routine that fails decides what is committed and what is cancelled. -/
theorem commitAll_eq_error_iff {rs : List (ChangeRequest (StateM σ))}
    (h : ∀ r ∈ rs, r.state = .opened) {committed : List String} {e : ConfigError} {s t : σ} :
    (commitAll committed rs).run.run s = (.error e, t) ↔
      ∃ front r rest cause, rs = front ++ r :: rest ∧ FailsAt front r cause s t ∧
        e = .commitFailed r.backend (committed ++ front.map (·.backend))
          ((r :: rest).map (·.backend)) cause := by
  induction rs generalizing committed s with
  | nil =>
      refine ⟨nofun, ?_⟩
      rintro ⟨front, r, rest, cause, hsplit, -⟩
      exact absurd hsplit.symm (List.append_ne_nil_of_right_ne_nil front (List.cons_ne_nil r rest))
  | cons r rs ih =>
      rw [commitAll_cons_run h]
      cases hpersist : (r.persist r.changes).run.run s with
      | mk answer u =>
          cases answer with
          | error cause =>
              constructor
              · intro hrun
                cases hrun
                refine ⟨[], r, rs, cause, rfl, ⟨s, .nil, hpersist⟩, ?_⟩
                rw [List.map_nil, List.append_nil]
              · rintro ⟨front, r', rest, cause', hsplit, ⟨v, hfront, hfail⟩, rfl⟩
                cases hfront with
                | nil =>
                    cases hsplit
                    cases hpersist.symm.trans hfail
                    rw [List.map_nil, List.append_nil]
                | cons hfirst _ =>
                    cases hsplit
                    cases hpersist.symm.trans hfirst
          | ok _ =>
              have hrest : ∀ q ∈ rs, q.state = .opened := (List.forall_mem_cons.1 h).2
              refine (ih hrest).trans ?_
              constructor
              · rintro ⟨front, r', rest, cause, rfl, ⟨v, hfront, hfail⟩, rfl⟩
                refine ⟨r :: front, r', rest, cause, rfl, ⟨v, .cons hpersist hfront, hfail⟩, ?_⟩
                rw [List.append_assoc]
                rfl
              · rintro ⟨front, r', rest, cause, hsplit, ⟨v, hfront, hfail⟩, rfl⟩
                cases hfront with
                | nil =>
                    cases hsplit
                    cases hpersist.symm.trans hfail
                | @cons r'' front _ _ _ hfirst hlater =>
                    cases hsplit
                    cases hpersist.symm.trans hfirst
                    refine ⟨front, r', rest, cause, rfl, ⟨v, hlater, hfail⟩, ?_⟩
                    rw [List.append_assoc]
                    rfl

/-- A log to which the routine of a request adds its backend and what it gets, whether it succeeds
or not. -/
def RecordsIn (log : σ → List (String × ChangeSet)) (r : ChangeRequest (StateM σ)) : Prop :=
  ∀ changes s, log (after (r.persist changes).run s) = log s ++ [(r.backend, changes)]

theorem Persisted.log_eq {log : σ → List (String × ChangeSet)}
    {rs : List (ChangeRequest (StateM σ))} {s t : σ} (h : Persisted rs s t) (hlog : ∀ r ∈ rs, RecordsIn log r) :
    log t = log s ++ rs.map fun r => (r.backend, r.changes) := by
  induction h with
  | nil => exact (List.append_nil _).symm
  | @cons r rs s t u hfirst _ ih =>
      obtain ⟨hr, hrs⟩ := List.forall_mem_cons.1 hlog
      have hleft : after (r.persist r.changes).run s = t := congrArg (·.2) hfirst
      rw [ih hrs, ← hleft, hr, List.append_assoc]
      rfl

theorem FailsAt.log_eq {log : σ → List (String × ChangeSet)}
    {front : List (ChangeRequest (StateM σ))} {r : ChangeRequest (StateM σ)} {cause : ConfigError}
    {s t : σ} (h : FailsAt front r cause s t) (hlog : ∀ q ∈ front ++ [r], RecordsIn log q) :
    log t = log s ++ (front ++ [r]).map fun r => (r.backend, r.changes) := by
  obtain ⟨u, hfront, hfail⟩ := h
  obtain ⟨hlogFront, hlogLast⟩ := List.forall_mem_append.1 hlog
  have hleft : after (r.persist r.changes).run u = t := congrArg (·.2) hfail
  rw [← hleft, hlogLast r (List.mem_singleton.2 rfl), hfront.log_eq hlogFront, List.append_assoc,
    List.map_append]
  rfl

/-- The requests stand in effective order, and a store fails at the first one whose routine does:
the error names its backend and carries its error, what stands before it is committed, and it and
everything after it is cancelled. The routines that have run are those of the committed requests and
the failing one, once each, with what was staged. -/
theorem store_failure {c : Configuration (StateM σ)}
    (hfresh : ∀ p ∈ c.context.providers, p.OpensFresh) (correlation : Tag) (policy : Policy)
    {steps : List (Step (Mutable (StateM σ)) MutableCall σ)}
    (h : Run perform (create correlation c policy) steps mc) :
    ByRank c mc.requests ∧
    (∀ s e t, mc.store.run.run s = (.error e, t) ↔ ∃ front r rest cause,
      mc.requests.map (·.2) = front ++ r :: rest ∧ FailsAt front r cause s t ∧
        e = .commitFailed r.backend (front.map (·.backend)) ((r :: rest).map (·.backend)) cause) ∧
    (∀ log, (∀ q ∈ mc.requests, RecordsIn log q.2) → ∀ front r rest cause s t,
      mc.requests.map (·.2) = front ++ r :: rest → FailsAt front r cause s t →
        log t = log s ++ (front ++ [r]).map fun r => (r.backend, r.changes)) := by
  obtain ⟨hsound, routes, htakes⟩ := sound_of_run hfresh h
  have hopen : ∀ r ∈ mc.requests.map (·.2), r.state = .opened :=
    List.forall_mem_map.2 hsound.opened
  refine ⟨byRank_of_takesAll htakes hsound, fun s e t => commitAll_eq_error_iff hopen, ?_⟩
  intro log hlog front r rest cause s t hsplit hfails
  have hrecords : ∀ q ∈ mc.requests.map (·.2), RecordsIn log q := List.forall_mem_map.2 hlog
  refine hfails.log_eq fun q hq => hrecords q ?_
  rw [hsplit, List.append_cons]
  exact List.mem_append_left rest hq

end Mutable

namespace Sample

def high : MemoryProvider := ⟨0, "high", 100, true, true, none⟩

def low : MemoryProvider := ⟨1, "low", 10, true, true, none⟩

/-- A configuration over the backends of some memory providers. -/
def backed (ps : List MemoryProvider) : Configuration Act :=
  .ofContext 3 ⟨3, ps.map (·.toProvider), [], []⟩

theorem opensFresh_backed (ps : List MemoryProvider) :
    ∀ p ∈ (backed ps).context.providers, p.OpensFresh :=
  List.forall_mem_map.2 fun p _ => p.opensFresh

/-- A configuration over three backends, of which the second one refuses every commit. -/
def tiered : Configuration Act := .ofContext 3
  ⟨3, [high.toProvider, broken 2 "broken" 50 false freshTag, low.toProvider], [], []⟩

theorem opensFresh_tiered : ∀ p ∈ tiered.context.providers, p.OpensFresh := by
  intro p hp
  simp only [tiered, Configuration.ofContext, List.mem_cons, List.not_mem_nil, or_false] at hp
  rcases hp with rfl | rfl | rfl
  · exact high.opensFresh
  · exact opensFresh_broken 2 "broken" 50 false freshTag
  · exact low.opensFresh

/-- The most significant backend is committed, the refusing one and the last one are cancelled. -/
theorem tiered_store_fails :
    let run := performAll Mutable.perform (Mutable.create 4 tiered .all) (World.initial "/")
      [.put "port" "8080"]
    ∃ t, run.2.1.store.run.run run.2.2 = (.error (.commitFailed "broken:broken" ["memory:high"]
        ["broken:broken", "memory:low"] (.source "broken" "disk full" none)), t) ∧
      (t.memory high.tag).get? "port" = some (some "8080") ∧
      (t.memory low.tag).get? "port" = none := by
  intro run
  have h : Run Mutable.perform (Mutable.create 4 tiered .all) run.1 run.2.1 :=
    run_performAll _ _ _ _
  obtain ⟨-, hstore, -⟩ := Mutable.store_failure opensFresh_tiered 4 .all h
  refine ⟨_, (hstore _ _ _).2 ⟨[_], _, [_], _, rfl, ⟨_, .cons rfl .nil, rfl⟩, rfl⟩, rfl, rfl⟩

end Sample

end LayeredConfig

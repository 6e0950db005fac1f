import LayeredConfig.Proofs.Change.Backends
import LayeredConfig.Proofs.Mutable.Replay

/-!
Restricted providers. The pattern of a memory provider is asked when changes are routed: whatever
the policy says, a key that the pattern does not match is not staged with the provider, so no store
touches it. The routine of a request does not ask: a request that is opened on the provider itself
changes whatever is staged in it.
-/

namespace LayeredConfig

variable {σ γ : Type}

/-- Nothing is staged under a key, and the routine leaves what `f` reads as it is if it gets nothing
under the key. -/
structure ChangeRequest.Omits (f : σ → γ) (key : String) (r : ChangeRequest (StateM σ)) : Prop where
  changes : r.changes.Omits key
  routine : ∀ changes : ChangeSet, changes.Omits key → Leaves f (r.persist changes)

namespace ChangeRequest

variable {f : σ → γ} {key : String} {r r' : ChangeRequest (StateM σ)}

theorem Omits.turn (h : r.Omits f key) {call : RequestCall} (hcall : ¬ call.Names key)
    {result : Except ConfigError Unit} {s t : σ} (hturn : Turn r s call result r' t) :
    r'.Omits f key ∧ f t = f s := by
  cases hturn with
  | looked => exact ⟨h, rfl⟩
  | closed _ _ => exact ⟨h, rfl⟩
  | unnamed _ _ => exact ⟨h, rfl⟩
  | cancelled _ => exact ⟨⟨.empty key, h.routine⟩, rfl⟩
  | committed _ hpersist =>
      exact ⟨⟨.empty key, h.routine⟩, (h.routine _ h.changes).eq_of_run hpersist⟩
  | failed _ hpersist => exact ⟨h, (h.routine _ h.changes).eq_of_run hpersist⟩
  | @staged _ changes _ hchanges _ =>
      have hkeys : ∀ change ∈ changes, change.key ≠ key :=
        fun change hmem hkey => hcall ⟨changes, hchanges, change, hmem, hkey⟩
      exact ⟨⟨h.changes.foldl_stage hkeys, h.routine⟩, rfl⟩

theorem Omits.run {start : ChangeRequest (StateM σ)} (hstart : start.Omits f key)
    {steps : List (Step (ChangeRequest (StateM σ)) RequestCall σ)} (h : Run perform start steps r)
    (hcalls : ∀ step ∈ steps, ¬ step.call.Names key) :
    r.Omits f key ∧ ∀ step ∈ steps, f step.left = f step.found := by
  induction h with
  | nil => exact ⟨hstart, List.forall_mem_nil _⟩
  | @snoc steps object found call result next left _ hstep ih =>
      obtain ⟨hearlier, hlast⟩ := List.forall_mem_append.1 hcalls
      have hcall : ¬ call.Names key := hlast _ (List.mem_singleton.2 rfl)
      obtain ⟨homits, hleft⟩ := ih hearlier
      obtain ⟨hnext, hsame⟩ := homits.turn hcall (turn_of_perform hstep)
      exact ⟨hnext, List.forall_mem_append.2 ⟨hleft, List.forall_mem_singleton.2 hsame⟩⟩

end ChangeRequest

/-- A provider touches what `f` reads neither when it opens a request nor when one is committed. -/
structure Provider.Spares (f : σ → γ) (p : Provider (StateM σ)) : Prop where
  fresh : p.OpensFresh
  quiet : p.OpensQuietly f
  routine : ∀ access, p.access = some access → ∀ s r, outcome access.openRequest.run s = .ok r →
    ∀ changes, Leaves f (r.persist changes)

namespace MemoryProvider

variable {p : MemoryProvider} {key : String}

theorem leaves_persist (p : MemoryProvider) {changes : ChangeSet} (h : changes.Omits key) :
    Leaves (p.held key) (p.persist changes) := by
  intro w
  have hmemory : (after (p.persist changes).run w).memory p.tag =
      changes.writeTo some (w.memory p.tag) := if_pos rfl
  rw [held, hmemory, h.get?_writeTo]
  rfl

theorem omits_of_openRequest {w : World} {r : ChangeRequest Act}
    (h : outcome p.openRequest.run w = .ok r) : r.Omits (p.held key) key := by
  obtain ⟨uri, -, rfl⟩ := eq_create_of_openRequest h
  exact ⟨.empty key, fun _ homits => p.leaves_persist homits⟩

theorem memory_turn {r r' : ChangeRequest Act} (hpersist : r.persist = p.persist)
    {call : RequestCall} {result : Except ConfigError Unit} {w w' : World}
    (h : ChangeRequest.Turn r w call result r' w') : w'.memory p.tag =
      if ChangeRequest.persists ⟨r, w, call, result, r', w'⟩ then
        r.changes.writeTo some (w.memory p.tag)
      else w.memory p.tag := by
  cases h with
  | looked => rfl
  | cancelled _ => rfl
  | closed _ _ => simp
  | unnamed _ _ => simp
  | failed _ hfailed =>
      rw [hpersist] at hfailed
      cases hfailed
  | committed _ hcommitted =>
      rw [hpersist] at hcommitted
      cases hcommitted
      exact if_pos rfl
  | staged _ hchanges _ =>
      have hcall : call ≠ .commit := by
        rintro rfl
        cases hchanges
      simp [ChangeRequest.persists, hcall]

theorem leaves_persist_of_ne {q : MemoryProvider} (h : p.tag ≠ q.tag) (changes : ChangeSet)
    (key : String) : Leaves (p.held key) (q.persist changes) := by
  intro w
  have hmemory : (after (q.persist changes).run w).memory p.tag = w.memory p.tag := if_neg h
  rw [held, hmemory]
  rfl

theorem opensQuietly_held (p q : MemoryProvider) (key : String) :
    q.toProvider.OpensQuietly (p.held key) := by
  intro access haccess w
  rw [held, (access_eq_some haccess).2, memory_openRequest]
  rfl

theorem spares_of_ne {q : MemoryProvider} (h : p.tag ≠ q.tag) (key : String) :
    q.toProvider.Spares (p.held key) := by
  refine ⟨q.opensFresh, p.opensQuietly_held q key, ?_⟩
  intro access haccess w r hr changes
  rw [(access_eq_some haccess).2] at hr
  obtain ⟨uri, -, rfl⟩ := eq_create_of_openRequest hr
  exact leaves_persist_of_ne h changes key

end MemoryProvider

namespace Mutable

variable {mc : Mutable (StateM σ)}

theorem leaves_commitAll {f : σ → γ} {rs : List (ChangeRequest (StateM σ))}
    (hopen : ∀ r ∈ rs, r.state = .opened) (hleaves : ∀ r ∈ rs, Leaves f (r.persist r.changes))
    (committed : List String) : Leaves f (commitAll committed rs) := by
  induction rs generalizing committed with
  | nil => exact .except (.ok committed)
  | cons r rs ih =>
      obtain ⟨hfirst, hlater⟩ := List.forall_mem_cons.1 hleaves
      have hrest : ∀ q ∈ rs, q.state = .opened := (List.forall_mem_cons.1 hopen).2
      intro s
      rw [after, commitAll_cons_run hopen]
      cases hpersist : (r.persist r.changes).run.run s with
      | mk answer t =>
          have hsame := hfirst.eq_of_run hpersist
          cases answer with
          | error cause => exact hsame
          | ok _ => exact (ih hrest hlater _ t).trans hsame

/-- The providers of a configuration are a memory provider and others that do not touch its entry
under a key. -/
def Apart (p : MemoryProvider) (key : String) (ps : List (Provider Act)) : Prop :=
  ∀ q ∈ ps, q = p.toProvider ∨ q.Spares (p.held key)

variable {p : MemoryProvider} {key : String} {mc : Mutable Act}

/-- What is routed to providers that accept it leaves alone what the provider does not accept. -/
theorem TakesAll.leaves {start : Mutable Act} (hempty : start.requests = [])
    (hapart : Apart p key start.writables) (hkey : p.accepts key = false)
    {routes : List (Nat × Mutation)} (h : TakesAll start routes mc)
    (haccepted : ∀ route ∈ routes, Accepted start.writables route) {i : Nat} {r : ChangeRequest Act}
    (hr : request? i mc.requests = some r) : Leaves (p.held key) (r.persist r.changes) := by
  have hnone : request? i start.requests = none := by
    rw [hempty]
    rfl
  rcases h.request?_eq i with ⟨-, hsame⟩ | ⟨-, w, r₁, hfor, hstaged⟩
  · cases (hsame.trans hnone).symm.trans hr
  · cases hstaged.symm.trans hr
    obtain ⟨q, access, r₀, hq, haccess, hopen, rfl⟩ := opened_of_requestFor hnone hfor
    rcases hapart q (List.mem_of_getElem? hq) with rfl | hspares
    · rw [(MemoryProvider.access_eq_some haccess).2] at hopen
      have homits : r₀.Omits (p.held key) key := MemoryProvider.omits_of_openRequest hopen
      refine homits.routine _ (homits.changes.foldl_stage ?_)
      rintro change hchange rfl
      obtain ⟨route, hroute, rfl⟩ := List.mem_map.1 hchange
      obtain ⟨hmem, hi⟩ := List.mem_filter.1 hroute
      obtain ⟨q', hq', haccepts⟩ := haccepted route hmem
      rw [of_decide_eq_true hi, hq] at hq'
      cases hq'
      rw [MemoryProvider.accepts_target, hkey] at haccepts
      cases haccepts
    · exact hspares.routine access haccess w r₀ hopen _

theorem unaccepted_untouched {c : Configuration Act} {correlation : Tag} {policy : Policy}
    (hapart : Apart p key c.context.providers) (hkey : p.accepts key = false)
    {steps : List (Step (Mutable Act) MutableCall World)}
    (h : Run perform (create correlation c policy) steps mc) :
    (∀ step ∈ steps, p.held key step.left = p.held key step.found) ∧
      Leaves (p.held key) mc.store := by
  have hwritables : Apart p key (create correlation c policy).writables :=
    fun q hq => hapart q (List.mem_filter.1 hq).1
  have hwritable : ∀ q ∈ (create correlation c policy).writables,
      q.OpensFresh ∧ q.OpensQuietly (p.held key) := by
    intro q hq
    rcases hwritables q hq with rfl | hspares
    · exact ⟨p.opensFresh, p.opensQuietly_held p key⟩
    · exact ⟨hspares.fresh, hspares.quiet⟩
  have hcreate : (create correlation c policy).Sound :=
    sound_create fun q hq => (hwritable q hq).1
  refine ⟨?_, ?_⟩
  · intro step hstep
    obtain ⟨⟨earlier, hearlier⟩, hrun⟩ := h.step_of_mem step hstep
    obtain ⟨routes, htakes⟩ := takesAll_of_run hcreate hearlier
    refine perform_quiet ?_ hrun
    rw [htakes.frame.writables]
    exact fun q hq => (hwritable q hq).2
  · obtain ⟨routes, htakes, haccepted⟩ := accepted_of_run hcreate h
    have hsound : mc.Sound := hcreate.takesAll htakes
    refine leaves_commitAll (List.forall_mem_map.2 hsound.opened) ?_ []
    refine List.forall_mem_map.2 fun q hq => ?_
    have hq : request? q.1 mc.requests = some q.2 := (request?_eq_some_iff hsound.ordered).2 hq
    exact htakes.leaves rfl hwritables hkey haccepted hq

end Mutable

/-- Calls on a configuration, and a store of what they have staged, leave alone what a memory
provider holds under a key that its pattern does not match: by every policy, whether they fail or
not, and if the other providers leave it alone. A request that is opened on the provider itself does
not keep to the pattern. Its commit does to the entries what is staged in it, so a key stays as it
is if no call names it. -/
theorem MemoryProvider.restriction_routed {p : MemoryProvider} {pattern : WholePattern}
    (hpattern : p.writableKeys = some pattern) {key : String} (hkey : pattern.accepts key = false) :
    (∀ (c : Configuration Act) (correlation : Tag) (policy : Policy)
      (steps : List (Step (Mutable Act) MutableCall World)) (mc : Mutable Act),
      Mutable.Apart p key c.context.providers →
      Run Mutable.perform (Mutable.create correlation c policy) steps mc →
      (∀ step ∈ steps, p.held key step.left = p.held key step.found) ∧
      ∀ w, p.held key (after mc.store.run w) = p.held key w) ∧
    ∀ (w : World) (r₀ r : ChangeRequest Act)
      (steps : List (Step (ChangeRequest Act) RequestCall World)),
      outcome p.openRequest.run w = .ok r₀ → Run ChangeRequest.perform r₀ steps r →
      (∀ step ∈ steps, step.left.memory p.tag =
        if ChangeRequest.persists step then
          step.object.changes.writeTo some (step.found.memory p.tag)
        else step.found.memory p.tag) ∧
      ((∀ step ∈ steps, ¬ step.call.Names key) →
        ∀ step ∈ steps, p.held key step.left = p.held key step.found) := by
  refine ⟨?_, ?_⟩
  · intro c correlation policy steps mc hapart h
    have hunaccepted : p.accepts key = false := by simp [accepts, hpattern, hkey]
    exact Mutable.unaccepted_untouched hapart hunaccepted h
  · intro w r₀ r steps hopen h
    refine ⟨?_, fun hcalls => ((omits_of_openRequest hopen).run h hcalls).2⟩
    intro step hmem
    obtain ⟨uri, -, rfl⟩ := eq_create_of_openRequest hopen
    obtain ⟨⟨earlier, hearlier⟩, hstep⟩ := h.step_of_mem step hmem
    exact memory_turn (ChangeRequest.sound_of_run hearlier).persist_eq
      (ChangeRequest.turn_of_perform hstep)

namespace Sample

def databaseKeys : WholePattern := (WholePattern.compile? .standard "db\\..+").get (by decide +kernel)

def walled : MemoryProvider := ⟨0, "walled", 100, true, true, some databaseKeys⟩

theorem databaseKeys_port : databaseKeys.accepts "port" = false := by decide +kernel

theorem apart_walled (key : String) :
    Mutable.Apart walled key (backed [walled, low]).context.providers := by
  refine List.forall_mem_cons.2 ⟨.inl rfl, List.forall_mem_singleton.2 (.inr ?_)⟩
  exact MemoryProvider.spares_of_ne (by decide) key

/-- The port goes to the other provider alone, and the key of the database to both. A request that
is opened on the provider itself, and in which the port is not staged, does not touch it either. -/
theorem walled_port_kept :
    let run := performAll Mutable.perform (Mutable.create 4 (backed [walled, low]) .all)
      (World.initial "/") [.put "port" "8080", .put "db.url" "x"]
    let stored := after run.2.1.store.run run.2.2
    let direct := performAll ChangeRequest.perform (.create 0 "memory:walled" walled.persist)
      stored [.remove ["db.url"], .commit]
    walled.held "db.url" stored = some (some "x") ∧ walled.held "port" stored = none ∧
      low.held "port" stored = some (some "8080") ∧ walled.held "db.url" direct.2.2 = none ∧
      ∀ step ∈ direct.1, walled.held "port" step.left = walled.held "port" step.found := by
  intro run stored direct
  have h : Run Mutable.perform (Mutable.create 4 (backed [walled, low]) .all) run.1 run.2.1 :=
    run_performAll _ _ _ _
  have hdirect : Run ChangeRequest.perform (.create 0 "memory:walled" walled.persist) direct.1
      direct.2.1 := run_performAll _ _ _ _
  have hopen : outcome walled.openRequest.run (World.initial "/") =
      .ok (.create 0 "memory:walled" walled.persist) := rfl
  obtain ⟨hrouted, hopened⟩ :=
    MemoryProvider.restriction_routed (p := walled) rfl databaseKeys_port
  obtain ⟨-, hstore⟩ := hrouted _ 4 .all run.1 run.2.1 (apart_walled "port") h
  obtain ⟨-, hunnamed⟩ := hopened _ _ _ direct.1 hopen hdirect
  refine ⟨by decide +kernel, ?_, by decide +kernel, by decide +kernel, hunnamed ?_⟩
  · rw [hstore]
    rfl
  · refine List.forall_mem_cons.2 ⟨?_, List.forall_mem_singleton.2 ?_⟩
    · rintro ⟨changes, hchanges, change, hmem, hkey⟩
      cases hchanges
      cases List.mem_singleton.1 hmem
      exact absurd hkey (by decide)
    · rintro ⟨changes, hchanges, -⟩
      cases hchanges

/-- A request that is opened on the provider itself sets a key that the pattern does not match. -/
theorem walled_written_directly :
    ∃ r₀, outcome walled.openRequest.run (World.initial "/") = .ok r₀ ∧
      let run := performAll ChangeRequest.perform r₀ (World.initial "/") [.put "port" "1", .commit]
      run.1.map (·.succeeds) = [true, true] ∧ databaseKeys.accepts "port" = false ∧
        walled.held "port" (World.initial "/") = none ∧
        walled.held "port" run.2.2 = some (some "1") :=
  ⟨_, rfl, rfl, databaseKeys_port, rfl, rfl⟩

end Sample

end LayeredConfig

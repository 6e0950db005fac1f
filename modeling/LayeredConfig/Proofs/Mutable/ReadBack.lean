import LayeredConfig.Proofs.Derived.Typed
import LayeredConfig.Proofs.Mutable.Replay

/-!
Reading back what has been put. Changes go past the view of a configuration to the providers of its
context, so the key of a change is a key of the context. A part of a configuration shows the new
value under the keys for which it looks up this one, and everything else as before.
-/

namespace LayeredConfig

variable {m : Type → Type} {σ : Type}

/-- What a section looks up for a key, if it can show the key. -/
def Key.original? (sect : String) (strip : Bool) (key : String) : Option String :=
  if strip then some (String.ofList (sectionPrefix sect.toList) ++ key)
  else if inSection key sect then some key
  else none

theorem Key.sectionPrefix_eq_nil_iff {s : List Char} : sectionPrefix s = [] ↔ s = [] := by
  rw [sectionPrefix]
  split
  · rfl
  · rename_i h
    exact iff_of_false (List.append_ne_nil_of_right_ne_nil s (List.cons_ne_nil '.' []))
      fun hs => h (.inl hs)

theorem Key.original?_eq_self_iff {sect key : String} {strip : Bool} :
    original? sect strip key = some key ↔
      if strip then sect = "" else inSection key sect = true := by
  cases strip with
  | true =>
      have hlead : String.ofList (sectionPrefix sect.toList) ++ key = key ↔
          sectionPrefix sect.toList = [] := by
        rw [← String.toList_inj, String.toList_append, String.toList_ofList,
          List.append_left_eq_self]
      simp [original?, hlead, sectionPrefix_eq_nil_iff]
  | false => simp [original?]

namespace Configuration

/-- A configuration, or a section of a part of it, and what it looks up for the keys that it can
show. -/
inductive Part [Monad m] (c : Configuration m) :
    Configuration m → (String → Option String) → Prop
  | whole : Part c c some
  | inSection {d original?} (tag : Tag) (sect : String) (strip : Bool) : Part c d original? →
      Part c (d.inSection tag sect strip) fun key =>
        (Key.original? sect strip key).bind original?

theorem Part.context_eq [Monad m] {c d : Configuration m} {original? : String → Option String}
    (h : Part c d original?) : d.context = c.context := by
  induction h with
  | whole => rfl
  | inSection tag sect strip _ ih => rw [Derivation.context_inSection, ih]

variable {c d : Configuration (StateM σ)} {key original : String}

theorem get_eq_bind (c : Configuration (StateM σ)) (hkey : key ≠ "") :
    c.get key = do return (← c.view.get key).bind (·.value) := by
  rw [get, getValue, ConfigError.requireKey_ok hkey]
  rfl

theorem get_inSection (c : Configuration (StateM σ)) (tag : Tag) {sect : String} {strip : Bool}
    (hkey : key ≠ "") (horiginal : Key.original? sect strip key = some original) :
    original ≠ "" ∧ (c.inSection tag sect strip).get key = c.get original := by
  cases strip with
  | true =>
      cases horiginal
      have hlong : String.ofList (Key.sectionPrefix sect.toList) ++ key ≠ "" := by
        simp [hkey]
      refine ⟨hlong, ?_⟩
      rw [Derivation.inSection_eq, if_neg (by simp), get_eq_bind _ hkey, get_eq_bind _ hlong]
      change (c.view.project tag _ true).get key >>= _ = _
      have hpayload : ∀ found : Option PropertyValue,
          (found.map (View.moved key)).bind (·.value) = found.bind (·.value) := by
        intro found
        rw [Option.bind_map]
        rfl
      simp only [View.get_project_stripped tag _ c.view hkey, bind_assoc, pure_bind, hpayload]
  | false =>
      obtain ⟨hsect, heq⟩ := Option.ite_none_right_eq_some.1 horiginal
      cases heq
      refine ⟨hkey, ?_⟩
      rw [Derivation.inSection_eq]
      split
      · rfl
      · rw [get_eq_bind _ hkey, get_eq_bind _ hkey]
        change (c.view.project tag _ false).get key >>= _ = _
        rw [get_project (List.isPrefixOf_iff_prefix.1 hsect)]

theorem Part.get_eq {original? : String → Option String} (h : Part c d original?)
    (hkey : key ≠ "") (horiginal : original? key = some original) :
    original ≠ "" ∧ d.get key = c.get original := by
  induction h generalizing key with
  | whole =>
      cases horiginal
      exact ⟨hkey, rfl⟩
  | inSection tag sect strip _ ih =>
      obtain ⟨middle, hmiddle, hlast⟩ := Option.bind_eq_some_iff.1 horiginal
      obtain ⟨hne, hsection⟩ := get_inSection _ tag hkey hmiddle
      obtain ⟨hne', hpart⟩ := ih hne hlast
      exact ⟨hne', hsection.trans hpart⟩

end Configuration

theorem Policy.select_head {target : Target} {targets : List Target} {change : Mutation}
    (h : target.accepts change = true) :
    Policy.mostSignificant.select change (target :: targets) = [0] := by
  have hpasses : Policy.passes (target :: targets) (·.accepts change) 0 = true := h
  rw [select, indices, List.length_cons, List.range_succ_eq_map, List.filter_cons_of_pos hpasses]
  rfl

namespace Mutable

variable {p : MemoryProvider} {rest : List MemoryProvider} {c : Configuration Act}
  {mc : Mutable Act} {key value : String}

theorem writables_of_accepts (hproviders : c.context.providers = (p :: rest).map (·.toProvider))
    (haccepts : p.accepts key = true) (correlation : Tag) (policy : Policy) :
    (create correlation c policy).writables =
      p.toProvider :: (rest.map (·.toProvider)).filter (·.isWritable) := by
  have hwritable : p.writable = true := (Bool.and_eq_true_iff.1 haccepts).1
  have hfirst : p.toProvider.isWritable = true := by
    simp [Provider.isWritable, MemoryProvider.toProvider, hwritable]
  rw [create, hproviders, List.map_cons, List.filter_cons_of_pos hfirst]

theorem routes_put (hproviders : c.context.providers = (p :: rest).map (·.toProvider))
    (haccepts : p.accepts key = true) (correlation : Tag) (value : String) :
    (create correlation c .mostSignificant).routes [.put key value] = [(0, .put key value)] := by
  have haccepted : p.toProvider.target.accepts (.put key value) = true :=
    (p.accepts_target _).trans haccepts
  rw [routes, writables_of_accepts hproviders haccepts, Policy.routes, List.flatMap_singleton,
    List.map_cons]
  change (Policy.mostSignificant.select _ _).map _ = _
  rw [Policy.select_head haccepted]
  rfl

theorem sound_create_of_memory (hproviders : c.context.providers = (p :: rest).map (·.toProvider))
    (correlation : Tag) (policy : Policy) : (create correlation c policy).Sound := by
  refine sound_create fun q hq => ?_
  rw [create, hproviders] at hq
  obtain ⟨q, -, rfl⟩ := List.mem_map.1 (List.mem_filter.1 hq).1
  exact q.opensFresh

theorem requests_of_put (hproviders : c.context.providers = (p :: rest).map (·.toProvider))
    (haccepts : p.accepts key = true) {correlation : Tag} {w w' : World}
    (hput : ((create correlation c .mostSignificant).put key value).run w = ((.ok (), mc), w')) :
    key ≠ "" ∧ ∃ r uri, mc.requests = [(0, r)] ∧ p.backend = .ok uri ∧ r.backend = uri ∧
      r.state = .opened ∧ r.persist = p.persist ∧ r.changes = ChangeSet.empty.put key value := by
  have hcreate := sound_create_of_memory hproviders correlation .mostSignificant
  have hroutes := routes_put hproviders haccepts correlation value
  have hturn : Turn (create correlation c .mostSignificant) (.put key value) (.ok ()) mc :=
    turn_of_perform hcreate hput
  cases hturn with
  | staged hnamed hstaged =>
      have hkey : key ≠ "" := fun hkey => hnamed ⟨_, List.mem_singleton.2 rfl, hkey⟩
      cases hstaged with
      | all hall =>
          rw [MutableCall.changes, hroutes] at hall
          cases hall with
          | cons hfirst hnone =>
              cases hnone
              obtain ⟨u, r, hr, rfl⟩ := hfirst
              obtain ⟨q, access, r₀, hq, haccess, hopen, rfl⟩ := opened_of_requestFor rfl hr
              rw [writables_of_accepts hproviders haccepts] at hq
              cases hq
              rw [(MemoryProvider.access_eq_some haccess).2] at hopen
              obtain ⟨uri, huri, rfl⟩ := MemoryProvider.eq_create_of_openRequest hopen
              exact ⟨hkey, _, uri, rfl, huri, rfl, rfl, rfl, rfl⟩

/-- After a put that has succeeded a store succeeds at any time, and inserts the value into the
entries of the first provider. -/
theorem store_of_put (hproviders : c.context.providers = (p :: rest).map (·.toProvider))
    (haccepts : p.accepts key = true) {correlation : Tag} {w w' : World}
    (hput : ((create correlation c .mostSignificant).put key value).run w = ((.ok (), mc), w')) :
    key ≠ "" ∧ ∃ uri, p.backend = .ok uri ∧ ∀ s, mc.store.run.run s =
      (.ok [uri], s.setMemory p.tag ((s.memory p.tag).insert key (some value))) := by
  obtain ⟨hkey, r, uri, hrequests, huri, rfl, hopen, hpersist, hchanges⟩ :=
    requests_of_put hproviders haccepts hput
  refine ⟨hkey, r.backend, huri, fun s => ?_⟩
  rw [store, hrequests]
  refine (commitAll_eq_ok_iff (List.forall_mem_singleton.2 hopen)).2 ⟨rfl, .cons ?_ .nil⟩
  rw [hpersist, hchanges]
  rfl

end Mutable

/-- A context over memory providers, in effective order, without filters. -/
structure Context.InMemory (ps : List MemoryProvider) (c : Context Act) : Prop where
  providers : c.providers = ps.map (·.toProvider)
  filters : c.filters = []
  named : ∀ p ∈ ps, p.name ≠ ""

namespace MemoryProvider

variable {p : MemoryProvider} {key : String}

theorem answer?_eq (hname : p.name ≠ "") (hkey : key ≠ "") (w : World) :
    p.toProvider.answer? key w =
      (p.held key w).map fun payload => ⟨key, payload, p.name, .empty⟩ := by
  rw [Provider.answer?, answer_eq, held]
  cases (w.memory p.tag).get? key with
  | none => rfl
  | some payload =>
      dsimp only
      rw [PropertyValue.create_eq_ok_iff.2 ⟨hkey, hname, rfl⟩]
      rfl

theorem held_setMemory_insert (p q : MemoryProvider) (w : World) (key other value : String) :
    q.held other (w.setMemory p.tag ((w.memory p.tag).insert key (some value))) =
      if q.tag = p.tag ∧ other = key then some (some value) else q.held other w := by
  rw [held, World.memory_setMemory]
  by_cases htag : q.tag = p.tag
  · by_cases hkey : other = key
    · simp [htag, hkey]
    · rw [if_pos htag, KeyMap.get?_insert_of_ne _ _ (Ne.symm hkey), if_neg (fun h => hkey h.2),
        held, htag]
  · rw [if_neg htag, if_neg (fun h => htag h.1), held]

theorem findSome?_answer? {ps : List MemoryProvider} (hnamed : ∀ p ∈ ps, p.name ≠ "")
    (hkey : key ≠ "") (w : World) :
    ((ps.map (·.toProvider)).findSome? (·.answer? key w)).bind (·.value) =
      (ps.findSome? (·.held key w)).join := by
  induction ps with
  | nil => rfl
  | cons p ps ih =>
      obtain ⟨hname, hnamed⟩ := List.forall_mem_cons.1 hnamed
      rw [List.map_cons, List.findSome?_cons, List.findSome?_cons, answer?_eq hname hkey]
      cases p.held key w with
      | none => exact ih hnamed
      | some payload => rfl

end MemoryProvider

theorem Context.InMemory.outcome_get {ps : List MemoryProvider} {context : Context Act}
    (h : context.InMemory ps) (tag : Tag) {key : String} (hkey : key ≠ "") (w : World) :
    outcome ((Configuration.ofContext tag context).get key).run w =
      .ok (ps.findSome? (·.held key w)).join := by
  let := World.alike fun _ _ _ => .ok .empty
  have hsteady : ∀ q ∈ context.providers, q.Steady ∧ Steady q.properties.run := by
    rw [h.providers]
    exact List.forall_mem_map.2 fun p _ => p.steady _
  have hundisturbed : context.Undisturbed := by
    refine ⟨fun q hq => (hsteady q hq).1, fun q hq => (hsteady q hq).2, ?_⟩
    rw [h.filters]
    exact nofun
  have hresolve : outcome (context.resolve key) w =
      (ps.map (·.toProvider)).findSome? (·.answer? key w) := by
    rw [Context.outcome_resolve hundisturbed, h.providers, h.filters]
    exact Option.bind_fun_some _
  rw [Configuration.get_eq_bind _ hkey, ← MemoryProvider.findSome?_answer? h.named hkey, ← hresolve]
  rfl

/-- A value that is inserted into the entries of the first provider is what each part of the
configuration gives for the keys for which it looks up this one. -/
theorem Context.InMemory.outcome_get_inserted {p : MemoryProvider} {rest : List MemoryProvider}
    {context : Context Act} (h : context.InMemory (p :: rest)) {tag : Tag}
    {part : Configuration Act} {original? : String → Option String}
    (hpart : (Configuration.ofContext tag context).Part part original?) {shown original : String}
    (hshown : shown ≠ "") (horiginal : original? shown = some original) (key value : String)
    (w : World) :
    outcome (part.get shown).run (w.setMemory p.tag ((w.memory p.tag).insert key (some value))) =
      if original = key then .ok (some value) else outcome (part.get shown).run w := by
  obtain ⟨hne, hget⟩ := hpart.get_eq hshown horiginal
  rw [hget, h.outcome_get tag hne, h.outcome_get tag hne]
  simp only [MemoryProvider.held_setMemory_insert]
  by_cases hkey : original = key
  · simp [hkey]
  · simp [hkey]

/-- A value is put into a configuration over memory providers, or into a part of it, and the first
provider accepts its key. Then a store succeeds, and the value stands under this key of the context.
Every part of the configuration gives it for the keys for which it looks up this one, and for all
others what it gave before. So the configuration itself and each of its sections that has the key
give the value back, unless the section strips its keys of some text. -/
theorem Mutable.put_read_back {p : MemoryProvider} {rest : List MemoryProvider}
    {context : Context Act} (hmemory : context.InMemory (p :: rest)) (tag : Tag)
    {changed : Configuration Act} {original? : String → Option String}
    (hchanged : (Configuration.ofContext tag context).Part changed original?)
    {key value : String} (haccepts : p.accepts key = true) (correlation : Tag) {w w' : World}
    {mc : Mutable Act}
    (hput : ((create correlation changed .mostSignificant).put key value).run w =
      ((.ok (), mc), w')) :
    ∃ uri, p.backend = .ok uri ∧ ∀ s, ∃ t, mc.store.run.run s = (.ok [uri], t) ∧
      (∀ part original?, (Configuration.ofContext tag context).Part part original? →
        ∀ shown original, shown ≠ "" → original? shown = some original →
          outcome (part.get shown).run t =
            if original = key then .ok (some value) else outcome (part.get shown).run s) ∧
      ∀ tag' sect strip, (if strip then sect = "" else Key.inSection key sect = true) →
        outcome (((Configuration.ofContext tag context).inSection tag' sect strip).get key).run t =
          .ok (some value) := by
  have hproviders : changed.context.providers = (p :: rest).map (·.toProvider) := by
    rw [hchanged.context_eq]
    exact hmemory.providers
  obtain ⟨hkey, uri, huri, hstore⟩ := store_of_put hproviders haccepts hput
  refine ⟨uri, huri, fun s => ⟨_, hstore s, ?_⟩⟩
  refine ⟨?_, ?_⟩
  · intro part original? hpart shown original hshown horiginal
    exact hmemory.outcome_get_inserted hpart hshown horiginal key value s
  · intro tag' sect strip hself
    have horiginal : (Key.original? sect strip key).bind some = some key := by
      rw [Key.original?_eq_self_iff.2 hself]
      rfl
    have hsection := Configuration.Part.inSection tag' sect strip
      (.whole (c := Configuration.ofContext tag context))
    exact (hmemory.outcome_get_inserted hsection hkey horiginal key value s).trans (if_pos rfl)

namespace Sample

theorem inMemory_backed : (backed [high, low]).context.InMemory [high, low] :=
  ⟨rfl, rfl, by decide⟩

theorem backend_high : high.backend = .ok "memory:high" := rfl

/-- What is put through a section that strips its keys so that the section shows the port. -/
theorem server_port_read_back :
    let c := backed [high, low]
    let server := c.inSection 5 "server" true
    let put := ((Mutable.create 4 server .mostSignificant).put "server.port" "8080").run
      (World.initial "/")
    put.1.1 = .ok () ∧ ∃ t, put.1.2.store.run.run put.2 = (.ok ["memory:high"], t) ∧
      outcome (server.get "port").run t = .ok (some "8080") ∧
      outcome ((c.inSection 6 "server" false).get "server.port").run t = .ok (some "8080") := by
  intro c server put
  have hserver : c.Part server _ := .inSection 5 "server" true .whole
  have hput : put = ((.ok (), put.1.2), put.2) := rfl
  obtain ⟨uri, huri, hstored⟩ := Mutable.put_read_back inMemory_backed 3 hserver rfl 4 hput
  obtain ⟨t, hstore, hread, hself⟩ := hstored put.2
  obtain rfl : "memory:high" = uri := Except.ok.inj (backend_high.symm.trans huri)
  refine ⟨rfl, t, hstore, ?_, hself 6 "server" false rfl⟩
  exact (hread server _ hserver "port" "server.port" (by decide) rfl).trans (if_pos rfl)

/-- A port that is put through the section is not shown there: it stands under this key of the whole
configuration. -/
theorem port_put_elsewhere :
    let c := backed [high, low]
    let server := c.inSection 5 "server" true
    let put := ((Mutable.create 4 server .mostSignificant).put "port" "8080").run
      (World.initial "/")
    put.1.1 = .ok () ∧ ∃ t, put.1.2.store.run.run put.2 = (.ok ["memory:high"], t) ∧
      outcome (server.get "port").run t = .ok none ∧
      outcome (c.get "port").run t = .ok (some "8080") := by
  intro c server put
  have hserver : c.Part server _ := .inSection 5 "server" true .whole
  have hput : put = ((.ok (), put.1.2), put.2) := rfl
  have hproviders : server.context.providers = [high, low].map (·.toProvider) := rfl
  obtain ⟨-, uri, huri, hstore⟩ := Mutable.store_of_put hproviders rfl hput
  obtain rfl : "memory:high" = uri := Except.ok.inj (backend_high.symm.trans huri)
  obtain ⟨hne, hget⟩ := hserver.get_eq (show "port" ≠ "" by decide) rfl
  refine ⟨rfl, _, hstore put.2, ?_, ?_⟩
  · rw [hget]
    exact inMemory_backed.outcome_get 3 hne _
  · exact inMemory_backed.outcome_get 3 (by decide) _

end Sample

end LayeredConfig

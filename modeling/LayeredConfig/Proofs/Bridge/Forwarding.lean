import LayeredConfig.Proofs.Bridge.Taking
import LayeredConfig.Proofs.Conversion.Consultation
import LayeredConfig.Proofs.Derived.Composition
import LayeredConfig.Proofs.Lookup.Ranking
import LayeredConfig.Sample.Host

/-!
Forwarding to a configuration from the other side of the bridge. A host configuration that passes
everything on to the one that stands for a configuration is taken over like any other one, since
nobody can tell what it hides. Its texts are looked up without their sources, its keys are gone
through one by one, and its typed look-ups go to the host; all of this leads back to the
configuration.
-/

namespace LayeredConfig

/-- A host configuration passes everything on to another one, and is not known to stand for any. -/
structure HostConfig.Forwards {m : Type → Type} (front back : HostConfig m) : Prop where
  foreign : front.native = none
  value : front.value = back.value
  typedValue : front.typedValue = back.typedValue
  propertyNames : front.propertyNames = back.propertyNames
  sources : front.sources = back.sources

variable {σ : Type} {s : σ} {key : String} {c n : Configuration (StateM σ)}
  {front back : HostConfig (StateM σ)}

section
variable [Setoid σ]

/-- An enumeration succeeds, and a look-up finds each text that it lists. -/
structure Configuration.Enumerates (c : Configuration (StateM σ)) (s : σ) (texts : KeyMap String) :
    Prop where
  listed : Gives c.getProperties.run s (.ok texts)
  found : ∀ key text, texts.get? key = some text → Gives (c.get key).run s (.ok (some text))

/-- A configuration shows every text that another one shows, and without hints it converts as that
one does, failures and handles included. -/
structure Configuration.Mirrors (n c : Configuration (StateM σ)) (s : σ) : Prop where
  getProperties : ∀ texts, Gives c.getProperties.run s (.ok texts) →
    Gives n.getProperties.run s (.ok texts)
  get : ∀ key found, Gives (c.get key).run s (.ok found) → Gives (n.get key).run s (.ok found)
  convertAny : ∀ key target, n.convertAny key target none = c.convertAny key target none
  convert : ∀ typeName key target,
    n.convert typeName key target none = c.convert typeName key target none

/-- In all states alike to `s` a provider answers in the same way, and so does the host's source
that it stands for, which has its name. -/
structure Provider.Settled (p : Provider (StateM σ)) (s : σ) : Prop where
  get : ∀ key, ∃ answer, Gives (p.get key).run s answer
  ordinal : ∃ n, Gives p.ordinal s n
  source : ∀ source, p.source = some source → source.Settled s ∧ source.name = p.name

/-- A configuration whose sources can be taken over from the host: it has providers of different
names, or is itself the view of a host configuration that can be taken over. -/
inductive Configuration.Presentable (s : σ) : Configuration (StateM σ) → Prop
  | own {c : Configuration (StateM σ)} : c.view.host? = none → Context.Named c.context.providers →
      (∀ p ∈ c.context.providers, p.Settled s) → Presentable s c
  | hosted {context tag h} {c : Configuration (StateM σ)} : h.native = none →
      Gives (Bridge.toNativeConfig tag h).run s (.ok c) →
      Presentable s ⟨context, Bridge.hostView tag h⟩

end

theorem requireKey_bind_bind {α : Type} (key : String) (x : ExceptT ConfigError (StateM σ) α) :
    (do
      ConfigError.requireKey key
      ConfigError.requireKey key
      x : ExceptT ConfigError (StateM σ) α) = (do
      ConfigError.requireKey key
      x : ExceptT ConfigError (StateM σ) α) := by
  by_cases hkey : key = ""
  · subst hkey
    rfl
  · rw [ConfigError.requireKey_ok hkey]
    rfl

section
variable [Setoid σ]

theorem Configuration.gives_get {found : Option PropertyValue} (hkey : key ≠ "")
    (h : Gives (c.view.get key).run s (.ok found)) :
    Gives (c.get key).run s (.ok (found.bind (·.value))) :=
  ((gives_requireKey hkey).bindExcept h).bindExcept (.ok _ s)

theorem Configuration.ne_of_gives_get {found : Option String}
    (h : Gives (c.get key).run s (.ok found)) : key ≠ "" := by
  rintro rfl
  cases h.outcome_eq

end

namespace Bridge

theorem lookup_wrapConfiguration {tag : Tag} (hfront : front.Forwards (wrapConfiguration tag c))
    (context : Context (StateM σ)) (tag' : Tag) (key : String) {target : Descriptor}
    (htarget : target.wrapping ≠ .deferred) :
    (Configuration.mk context (hostView tag' front)).lookup key target none =
      c.lookup key target none := by
  rw [Configuration.lookup_of_host rfl, hfront.typedValue]
  change (do
    ConfigError.requireKey key
    c.convertAny key target none : ExceptT ConfigError (StateM σ) _) = _
  rw [Configuration.convertAny_of_not_deferred htarget, Configuration.lookup]
  exact requireKey_bind_bind key _

theorem hostEntries_congr (hvalue : front.value = back.value)
    (sources : List (HostSource (StateM σ))) (acc : KeyMap PropertyValue) (names : List String) :
    hostEntries front sources acc names = hostEntries back sources acc names := by
  induction names generalizing acc with
  | nil => rfl
  | cons name names ih =>
      rw [hostEntries, hostEntries, hvalue]
      congr
      funext text
      cases text with
      | none => exact ih acc
      | some text => simp only [ih]

theorem hostView_get_congr (h : front.Forwards back) (tag tag' : Tag) :
    (hostView tag front).get = (hostView tag' back).get := by
  funext key
  rw [hostView, hostView]
  simp only [h.value, h.sources]

theorem hostView_properties_congr (h : front.Forwards back) (tag tag' : Tag) :
    (hostView tag front).properties = (hostView tag' back).properties := by
  rw [hostView, hostView]
  simp only [h.sources, h.propertyNames, hostEntries_congr h.value]

/-- What has been taken over can be taken over from one that forwards to it. -/
theorem gives_toNativeConfig_of_forwards [Setoid σ] {tag : Tag} (hfront : front.Forwards back)
    (hback : back.native = none) (htaken : Gives (toNativeConfig tag back).run s (.ok c))
    (tag' : Tag) :
    Gives (toNativeConfig tag' front).run s
      (.ok ⟨{ c.context with tag := tag' }, hostView tag' front⟩) := by
  rw [toNativeConfig, hback] at htaken
  rw [toNativeConfig, hfront.foreign, hfront.sources]
  intro t ht
  obtain ⟨u, hu, hrun⟩ := htaken t ht
  obtain ⟨sources, v, hsources, hrun⟩ := exists_run_of_bind_ok hrun
  obtain ⟨context, w, hbuild, hrun⟩ := exists_run_of_bind_ok hrun
  cases hrun
  obtain ⟨hnamed, rfl, rfl⟩ := Context.build_eq_ok hbuild
  exact ⟨_, hu, (run_bind_of_ok hsources).trans
    (run_bind_of_ok (Context.build_run tag' [] [] hnamed v))⟩

section
variable [Setoid σ] {ps : List (Provider (StateM σ))} {texts : KeyMap String}

theorem settled_toHostSource {p : Provider (StateM σ)} (hp : p.Settled s) (hnamed : p.name ≠ "")
    (tag : Tag) : (toHostSource tag p).Settled s ∧ (toHostSource tag p).name = p.name := by
  cases hsource : p.source with
  | some source =>
      rw [toHostSource, hsource]
      exact hp.source source hsource
  | none =>
      rw [toHostSource, hsource]
      refine ⟨⟨hnamed, hp.ordinal, ?_, ?_⟩, rfl⟩
      · intro key
        obtain ⟨answer, hanswer⟩ := hp.get key
        cases answer with
        | error e => exact ⟨none, hanswer.bind (.pure none s)⟩
        | ok found => exact ⟨found.bind (·.value), hanswer.bind (.pure _ s)⟩
      · rintro q ⟨rfl⟩
        exact ⟨rfl, hp.ordinal⟩

theorem settled_toHostSources (hps : ∀ p ∈ ps, p.Settled s) (hnamed : Context.Named ps) :
    (∀ source ∈ toHostSources ps, source.Settled s) ∧
      ((toHostSources ps).map (·.name)).Nodup := by
  refine ⟨?_, ?_⟩
  · intro source hsource
    obtain ⟨p, hp, rfl⟩ := List.mem_map.1 hsource
    exact (settled_toHostSource (hps p hp) (hnamed.nonempty p hp) p.tag).1
  · have hnames : (toHostSources ps).map (·.name) = ps.map (·.name) := by
      rw [toHostSources, List.map_map]
      exact List.map_congr_left fun p hp =>
        (settled_toHostSource (hps p hp) (hnamed.nonempty p hp) p.tag).2
    rw [hnames]
    exact hnamed.distinct

theorem gives_wrapConfiguration_value {found : Option String} (tag : Tag)
    (h : Gives (c.get key).run s (.ok found)) :
    Gives ((wrapConfiguration tag c).value key) s found := h.bind (.pure found s)

theorem gives_wrapConfiguration_names (tag : Tag) (h : Gives c.getProperties.run s (.ok texts)) :
    Gives (wrapConfiguration tag c).propertyNames s texts.keys := h.bind (.pure texts.keys s)

end

section
variable [Setoid σ] {texts : KeyMap String} {sources : List (HostSource (StateM σ))}

theorem gives_hostView_properties {h : HostConfig (StateM σ)} (hsources : Gives h.sources s sources)
    (hsettled : ∀ source ∈ sources, source.Settled s) (hnames : Gives h.propertyNames s texts.keys)
    (hvalue : ∀ key text, texts.get? key = some text → key ≠ "" ∧ Gives (h.value key) s (some text))
    (tag : Tag) : ∃ m, Gives (hostView tag h).properties.run s (.ok m) ∧ m.payloads = texts := by
  have hlisted : ∀ name ∈ texts.keys, name ≠ "" ∧ ∃ text, texts.get? name = some text ∧
      Gives (h.value name) s (some text) := by
    intro name hname
    obtain ⟨e, he, rfl⟩ := List.mem_map.1 hname
    have htext : texts.get? e.1 = some e.2 := KeyMap.get?_eq_some_iff.2 he
    obtain ⟨hkey, hgives⟩ := hvalue e.1 e.2 htext
    exact ⟨hkey, e.2, htext, hgives⟩
  obtain ⟨m, hgives, hm⟩ := gives_hostEntries hsettled texts.keys hlisted .empty
  refine ⟨m, hsources.lift.bindExcept (hnames.lift.bindExcept hgives), ?_⟩
  apply KeyMap.ext_get?
  intro key
  rw [KeyMap.payloads, KeyMap.get?_filterMap, hm]
  split
  · rfl
  · rename_i hmem
    -- A key that is not gone through has no text to begin with.
    cases htext : texts.get? key with
    | none => rfl
    | some text => exact absurd (List.mem_map_of_mem (KeyMap.get?_eq_some_iff.1 htext)) hmem

theorem mirrors_own {tag : Tag} (hnamed : Context.Named c.context.providers)
    (hproviders : ∀ p ∈ c.context.providers, p.Settled s) (hc : c.Enumerates s texts)
    (hfront : front.Forwards (wrapConfiguration tag c)) (tag' : Tag) :
    ∃ n, Gives (toNativeConfig tag' front).run s (.ok n) ∧ n.Mirrors c s := by
  obtain ⟨hsettled, hdistinct⟩ := settled_toHostSources hproviders hnamed
  have hsources : Gives front.sources s (toHostSources c.context.providers) := by
    rw [hfront.sources]
    exact .pure _ s
  have hvalue : ∀ key found, Gives (c.get key).run s (.ok found) →
      Gives (front.value key) s found := by
    intro key found h
    rw [hfront.value]
    exact gives_wrapConfiguration_value tag h
  have hnames : Gives front.propertyNames s texts.keys := by
    rw [hfront.propertyNames]
    exact gives_wrapConfiguration_names tag hc.listed
  obtain ⟨context, htaken⟩ := gives_toNativeConfig hfront.foreign hsources hsettled hdistinct tag'
  obtain ⟨m, hm, hpayloads⟩ := gives_hostView_properties hsources hsettled hnames
    (fun key text htext => ⟨Configuration.ne_of_gives_get (hc.found key text htext),
      hvalue key _ (hc.found key text htext)⟩) tag'
  obtain ⟨hany, htyped⟩ := Configuration.converts_congr
    fun key _ => lookup_wrapConfiguration hfront context tag' key
  refine ⟨_, htaken, ?_, ?_, hany, htyped⟩
  · intro texts' htexts'
    have hsame : texts' = texts := by
      cases hc.listed.outcome_eq.symm.trans htexts'.outcome_eq
      rfl
    rw [hsame, ← hpayloads]
    exact hm.bindExcept (.ok _ s)
  · intro key found h
    have hkey := Configuration.ne_of_gives_get h
    obtain ⟨v, hv, rfl⟩ := gives_hostView_get hsources hsettled tag' hkey (hvalue key found h)
    exact Configuration.gives_get hkey hv

/-- A view of a host configuration is mirrored by one of a host configuration that forwards to it,
since both ask the same. -/
theorem mirrors_hosted (hfront : front.Forwards back) (context context' : Context (StateM σ))
    (tag tag' : Tag) :
    Configuration.Mirrors ⟨context', hostView tag' front⟩ ⟨context, hostView tag back⟩ s := by
  have hlookup : ∀ key target, target.wrapping ≠ .deferred →
      (Configuration.mk context' (hostView tag' front)).lookup key target none =
        (Configuration.mk context (hostView tag back)).lookup key target none := by
    intro key target _
    rw [Configuration.lookup_of_host rfl, Configuration.lookup_of_host rfl, hfront.typedValue]
  obtain ⟨hany, htyped⟩ := Configuration.converts_congr hlookup
  refine ⟨?_, ?_, hany, htyped⟩
  · intro texts h
    rw [Configuration.getProperties, hostView_properties_congr hfront tag' tag]
    exact h
  · intro key found h
    rw [Configuration.get, Configuration.getValue, hostView_get_congr hfront tag' tag]
    exact h

/-- A configuration survives the way to the host and back, even if the host hides it behind a
configuration of its own that does nothing but forward to it. The host configuration can be taken
over, and its native view lists the same texts, finds the same text for every key that can be looked
up, and converts everything alike, to values as well as to handles. -/
theorem toNativeConfig_forwarding {tag : Tag} (hc : c.Presentable s) (htexts : c.Enumerates s texts)
    (hfront : front.Forwards (toHostConfig tag c)) (tag' : Tag) :
    ∃ n, Gives (toNativeConfig tag' front).run s (.ok n) ∧ n.Mirrors c s := by
  cases hc with
  | own hview hnamed hproviders =>
      rw [toHostConfig, hview] at hfront
      exact mirrors_own hnamed hproviders htexts hfront tag'
  | hosted hforeign htaken =>
      exact ⟨_, gives_toNativeConfig_of_forwards hfront hforeign htaken tag',
        mirrors_hosted hfront _ _ _ _⟩

end

end Bridge

namespace Sample

open Bridge

/-- A configuration over one provider in memory, with a converter for numbers. -/
def ledger : Configuration Act :=
  .ofContext 2 ⟨2, [(MemoryProvider.mk 0 "notes" 0 true false none).toProvider], [],
    .ofList [ruled 1 (.integer .u32) "Decimal" ["<digits>"] .parse]⟩

def entered : World :=
  (World.initial "/").setMemory 0 (.ofList [("count", some "7"), ("gone", none)])

theorem undisturbed_ledger :
    letI := World.alike fun _ _ _ => .ok .empty; ledger.context.Undisturbed := by
  let := World.alike fun _ _ _ => .ok .empty
  have hsteady := MemoryProvider.steady (fun _ _ _ => .ok .empty) ⟨0, "notes", 0, true, false, none⟩
  exact ⟨List.forall_mem_singleton.2 hsteady.1, List.forall_mem_singleton.2 hsteady.2, nofun⟩

theorem presentable_ledger (w : World) :
    letI := World.alike fun _ _ _ => .ok .empty; ledger.Presentable w := by
  let := World.alike fun _ _ _ => .ok .empty
  refine .own rfl ⟨by decide, by decide⟩ fun p hp => ?_
  have hsteady := undisturbed_ledger.providers p hp
  refine ⟨fun key => ⟨_, .of_steady (hsteady.get key) w⟩, ⟨_, .of_steady hsteady.ordinal w⟩, ?_⟩
  obtain rfl := List.mem_singleton.1 hp
  nofun

theorem gives_ledger_get {key : String} (hkey : key ≠ "") :
    letI := World.alike fun _ _ _ => .ok .empty
    Gives (ledger.get key).run entered
      (.ok ((outcome (ledger.context.resolve key) entered).bind (·.value))) := by
  let := World.alike fun _ _ _ => .ok .empty
  exact Configuration.gives_get hkey
    (Gives.of_steady (undisturbed_ledger.steady_resolve key) entered).lift

theorem enumerates_ledger : letI := World.alike fun _ _ _ => .ok .empty
    ledger.Enumerates entered (.ofList [("count", "7")]) := by
  let := World.alike fun _ _ _ => .ok .empty
  refine ⟨?_, ?_⟩
  · exact (undisturbed_ledger.gives_resolveAll (s := entered) rfl).bindExcept (.ok _ entered)
  · intro key text htext
    have hmem : (key, text) ∈ [("count", "7")] := KeyMap.get?_eq_some_iff.1 htext
    cases List.mem_singleton.1 hmem
    exact gives_ledger_get (by decide)

/-- The number comes back from the host, and the key without a payload still has none. -/
theorem ledger_forwarded :
    ∃ n, outcome (toNativeConfig 6 (passthrough 5 (toHostConfig 4 ledger))).run entered = .ok n ∧
      outcome n.getProperties.run entered = .ok (.ofList [("count", "7")]) ∧
      outcome (n.get "gone").run entered = .ok none ∧
      outcome (n.convertAny "count" (.plain "u32") none).run entered =
        .ok (some (.value (.integer .u32 7))) := by
  let := World.alike fun _ _ _ => .ok .empty
  have hforwards : (passthrough 5 (toHostConfig 4 ledger)).Forwards (toHostConfig 4 ledger) :=
    ⟨rfl, rfl, rfl, rfl, rfl⟩
  obtain ⟨n, hn, hmirrors⟩ :=
    toNativeConfig_forwarding (presentable_ledger entered) enumerates_ledger hforwards 6
  refine ⟨n, hn.outcome_eq, (hmirrors.getProperties _ enumerates_ledger.listed).outcome_eq, ?_, ?_⟩
  · exact (hmirrors.get "gone" none (gives_ledger_get (by decide))).outcome_eq
  · rw [hmirrors.convertAny]
    rfl

end Sample

end LayeredConfig

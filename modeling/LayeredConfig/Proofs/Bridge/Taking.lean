import LayeredConfig.Bridge.Configuration
import LayeredConfig.Proofs.Context.Order

/-!
Taking a configuration over from the host. Sources with different names become the providers of a
context, and the native view asks the host for every text, and its sources for the name of one that
holds it.
-/

namespace LayeredConfig

variable {σ : Type} [Setoid σ] {s : σ} {key : String}

theorem gives_requireKey (hkey : key ≠ "") :
    Gives (liftM (ConfigError.requireKey key) : ExceptT ConfigError (StateM σ) Unit).run s
      (.ok ()) := by
  rw [ConfigError.requireKey_ok hkey]
  exact .ok () s

/-- In all states alike to `s` a source answers in the same way, and so does the provider that it
stands for, which has its name. -/
structure HostSource.Settled (source : HostSource (StateM σ)) (s : σ) : Prop where
  named : source.name ≠ ""
  ordinal : ∃ n, Gives source.ordinal s n
  value : ∀ key, ∃ text, Gives (source.value key) s text
  provider : ∀ p, source.provider = some p → p.name = source.name ∧ ∃ n, Gives p.ordinal s n

namespace Bridge

theorem gives_of {text name : String} {v : PropertyValue}
    (hvalue : PropertyValue.of key text name = .ok v) :
    Gives (liftM (PropertyValue.of key text name) :
      ExceptT ConfigError (StateM σ) PropertyValue).run s (.ok v) := by
  rw [hvalue]
  exact .ok v s

section
variable {source : HostSource (StateM σ)} {sources : List (HostSource (StateM σ))}

theorem gives_wrapSource_get (tag : Tag) (hnamed : source.name ≠ "") (hkey : key ≠ "")
    {text : Option String} (htext : Gives (source.value key) s text) :
    Gives ((wrapSource tag source).get key).run s
      (.ok (text.map fun text => ⟨key, some text, source.name, .empty⟩)) := by
  refine htext.lift.bindExcept ?_
  cases text with
  | none => exact .ok none s
  | some text =>
      have hvalue : PropertyValue.of key text source.name =
          .ok ⟨key, some text, source.name, .empty⟩ :=
        PropertyValue.create_eq_ok_iff.2 ⟨hkey, hnamed, rfl⟩
      exact (gives_of hvalue).bindExcept (.ok _ s)

theorem exists_wrapSource_ordinal (h : source.Settled s) (tag : Tag) :
    ∃ n, Gives (wrapSource tag source).ordinal s n := by
  obtain ⟨n, hordinal⟩ := h.ordinal
  obtain ⟨text, htext⟩ := h.value ordinalKey
  have hget := gives_wrapSource_get tag h.named (by decide) htext
  cases text with
  | none => exact ⟨n, hget.bind hordinal⟩
  | some text =>
      cases hdeclared : Provider.declaredOrdinal? text with
      | none =>
          refine ⟨n, hget.bind ?_⟩
          simp only [Option.map_some, Option.bind_some, hdeclared]
          exact hordinal
      | some declared =>
          refine ⟨declared, hget.bind ?_⟩
          simp only [Option.map_some, Option.bind_some, hdeclared]
          exact .pure declared s

theorem toNativeProvider_settled (h : source.Settled s) (tag : Tag) :
    (toNativeProvider tag source).name = source.name ∧
      ∃ n, Gives (toNativeProvider tag source).ordinal s n := by
  cases hprovider : source.provider with
  | some p =>
      rw [toNativeProvider, hprovider]
      exact h.provider p hprovider
  | none =>
      rw [toNativeProvider, hprovider]
      exact ⟨rfl, exists_wrapSource_ordinal h tag⟩

theorem named_toNativeProviders (h : ∀ source ∈ sources, source.Settled s)
    (hdistinct : (sources.map (·.name)).Nodup) : Context.Named (toNativeProviders sources) := by
  have hnames : (toNativeProviders sources).map (·.name) = sources.map (·.name) := by
    rw [toNativeProviders, List.map_map]
    exact List.map_congr_left fun source hsource =>
      (toNativeProvider_settled (h source hsource) _).1
  refine ⟨?_, hnames ▸ hdistinct⟩
  intro p hp
  have hmem : p.name ∈ sources.map (·.name) := hnames ▸ List.mem_map_of_mem hp
  obtain ⟨source, hsource, hname⟩ := List.mem_map.1 hmem
  exact hname ▸ (h source hsource).named

theorem exists_supplier (h : ∀ source ∈ sources, source.Settled s) (key : String)
    (best : Option (Int × String)) (hbest : ∀ b, best = some b → b.2 ≠ "") :
    ∃ last, Gives (supplier key best sources) s last ∧ ∀ b, last = some b → b.2 ≠ "" := by
  induction sources generalizing best with
  | nil => exact ⟨best, .pure best s, hbest⟩
  | cons source sources ih =>
      obtain ⟨hsource, hsources⟩ := List.forall_mem_cons.1 h
      obtain ⟨text, htext⟩ := hsource.value key
      obtain ⟨n, hordinal⟩ := hsource.ordinal
      rw [supplier]
      cases text with
      | none =>
          obtain ⟨last, hlast, hnamed⟩ := ih hsources best hbest
          exact ⟨last, htext.bind hlast, hnamed⟩
      | some text =>
          cases best with
          | none =>
              obtain ⟨last, hlast, hnamed⟩ := ih hsources (some (n, source.name)) <| by
                rintro b ⟨rfl⟩
                exact hsource.named
              exact ⟨last, htext.bind (hordinal.bind hlast), hnamed⟩
          | some top =>
              -- Whichever of the two is kept, it has a name.
              obtain ⟨last, hlast, hnamed⟩ := ih hsources
                  (some (if top.1 ≤ n then (n, source.name) else top)) <| by
                rintro b ⟨rfl⟩
                split
                · exact hsource.named
                · exact hbest top rfl
              exact ⟨last, htext.bind (hordinal.bind hlast), hnamed⟩

theorem exists_sourceOf (h : ∀ source ∈ sources, source.Settled s) (key : String) :
    ∃ name, name ≠ "" ∧ Gives (sourceOf key sources) s name := by
  obtain ⟨last, hlast, hnamed⟩ := exists_supplier h key none nofun
  refine ⟨(last.map (·.2)).getD hostSourceName, ?_, hlast.bind (.pure _ s)⟩
  cases last with
  | none => decide
  | some b => exact hnamed b rfl

end

section
variable {h : HostConfig (StateM σ)} {sources : List (HostSource (StateM σ))}

theorem gives_toNativeConfig (hforeign : h.native = none) (hsources : Gives h.sources s sources)
    (hsettled : ∀ source ∈ sources, source.Settled s)
    (hdistinct : (sources.map (·.name)).Nodup) (tag : Tag) :
    ∃ context, Gives (toNativeConfig tag h).run s (.ok ⟨context, hostView tag h⟩) := by
  have hordinal : ∀ p ∈ toNativeProviders sources, Gives p.ordinal s (outcome p.ordinal s) := by
    intro p hp
    obtain ⟨source, hsource, rfl⟩ := List.mem_map.1 hp
    obtain ⟨n, hn⟩ := (toNativeProvider_settled (hsettled source hsource) _).2
    exact hn.self
  rw [toNativeConfig, hforeign]
  exact ⟨_, hsources.lift.bindExcept ((Context.gives_build tag [] []
    (named_toNativeProviders hsettled hdistinct) hordinal).bindExcept (.ok _ s))⟩

omit [Setoid σ] in
/-- What is taken over is a view of the host, over a context without converters. -/
theorem toNativeConfig_eq_ok {tag : Tag} {c : Configuration (StateM σ)} {s t : σ}
    (hforeign : h.native = none) (hrun : (toNativeConfig tag h).run.run s = (.ok c, t)) :
    ∃ context, c = ⟨context, hostView tag h⟩ ∧ context.converters = [] := by
  rw [toNativeConfig, hforeign] at hrun
  obtain ⟨sources, u, -, hrun⟩ := exists_run_of_bind_ok hrun
  obtain ⟨context, u', hbuild, hrun⟩ := exists_run_of_bind_ok hrun
  cases hrun
  obtain ⟨-, rfl, -⟩ := Context.build_eq_ok hbuild
  exact ⟨_, rfl, rfl⟩

theorem gives_hostView_get (hsources : Gives h.sources s sources)
    (hsettled : ∀ source ∈ sources, source.Settled s) (tag : Tag) (hkey : key ≠ "")
    {text : Option String} (htext : Gives (h.value key) s text) :
    ∃ found, Gives ((hostView tag h).get key).run s (.ok found) ∧
      found.bind (·.value) = text := by
  cases text with
  | none => exact ⟨none, htext.lift.bindExcept (.ok none s), rfl⟩
  | some text =>
      obtain ⟨name, hnamed, hname⟩ := exists_sourceOf hsettled key
      have hvalue : PropertyValue.of key text name = .ok ⟨key, some text, name, .empty⟩ :=
        PropertyValue.create_eq_ok_iff.2 ⟨hkey, hnamed, rfl⟩
      refine ⟨some ⟨key, some text, name, .empty⟩, ?_, rfl⟩
      exact htext.lift.bindExcept (hsources.lift.bindExcept (hname.lift.bindExcept
        ((gives_of hvalue).bindExcept (.ok _ s))))

theorem gives_hostEntries (hsettled : ∀ source ∈ sources, source.Settled s)
    {texts : KeyMap String} (names : List String)
    (hnames : ∀ name ∈ names, name ≠ "" ∧ ∃ text, texts.get? name = some text ∧
      Gives (h.value name) s (some text)) (acc : KeyMap PropertyValue) :
    ∃ m, Gives (hostEntries h sources acc names).run s (.ok m) ∧ ∀ key,
      (m.get? key).bind (·.value) =
        if key ∈ names then texts.get? key else (acc.get? key).bind (·.value) := by
  induction names generalizing acc with
  | nil => exact ⟨acc, .ok acc s, fun key => by simp⟩
  | cons name names ih =>
      obtain ⟨⟨hname, text, hlisted, htext⟩, hnames⟩ := List.forall_mem_cons.1 hnames
      obtain ⟨source, hnamed, hsource⟩ := exists_sourceOf hsettled name
      have hvalue : PropertyValue.of name text source = .ok ⟨name, some text, source, .empty⟩ :=
        PropertyValue.create_eq_ok_iff.2 ⟨hname, hnamed, rfl⟩
      obtain ⟨m, hgives, hm⟩ := ih hnames (acc.insert name ⟨name, some text, source, .empty⟩)
      refine ⟨m, ?_, ?_⟩
      · rw [hostEntries]
        exact htext.lift.bindExcept (hsource.lift.bindExcept ((gives_of hvalue).bindExcept hgives))
      · intro key
        rw [hm, KeyMap.get?_insert]
        by_cases hkey : key = name
        · subst hkey
          simp [hlisted]
        · simp [hkey, Ne.symm hkey]

end

end Bridge

end LayeredConfig

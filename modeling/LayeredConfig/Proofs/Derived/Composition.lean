import LayeredConfig.Proofs.Context.Combination
import LayeredConfig.Proofs.Derived.Coherence
import LayeredConfig.Proofs.Lookup.Enumeration

/-!
Configurations derived from others by any composition of sections, selections, renamings and
overlays. What such a configuration shows is said by recursion on the composition, and its view
shows just this, entry by entry and as a whole.
-/

namespace LayeredConfig

/-- A way to derive a configuration from given ones. -/
inductive Derivation (ι : Type)
  | input (i : ι)
  | inSection (tag : Tag) (sect : String) (strip : Bool) (d : Derivation ι)
  | inSections (tag : Tag) (sections : List String) (d : Derivation ι)
  | select (tag : Tag) (test : String → String → Bool) (d : Derivation ι)
  | rename (tag : Tag) (f : String → Option String) (d : Derivation ι)
  | combine (tag : Tag) (name : String) (first : Derivation ι) (rest : List (Derivation ι))

namespace Derivation

variable {ι σ : Type} {m : Type → Type}

mutual

def build [Monad m] (inputs : ι → Configuration m) :
    Derivation ι → ExceptT ConfigError m (Configuration m)
  | input i => return inputs i
  | inSection tag sect strip d => do return (← build inputs d).inSection tag sect strip
  | inSections tag sections d => do return (← build inputs d).inSections tag sections
  | select tag test d => do return (← build inputs d).select tag test
  | rename tag f d => do return (← build inputs d).rename tag f
  | combine tag name first rest => do
    Configuration.combine tag name ((← build inputs first) :: (← buildAll inputs rest))

def buildAll [Monad m] (inputs : ι → Configuration m) :
    List (Derivation ι) → ExceptT ConfigError m (List (Configuration m))
  | [] => return []
  | d :: rest => do return (← build inputs d) :: (← buildAll inputs rest)

end

mutual

/-- What a derived configuration shows, given what its inputs show: a section has the keys that start
with its prefix, known by what follows it if stripped; among keys with one new name the smallest one
counts. -/
def Shows (contents : ι → KeyMap PropertyValue) : Derivation ι → String → PropertyValue → Prop
  | input i, key, v => (contents i).get? key = some v
  | inSection _ sect true d, key, v => key ≠ "" ∧ ∃ found, v = { found with key } ∧
      Shows contents d (String.ofList (Key.sectionPrefix sect.toList) ++ key) found
  | inSection _ sect false d, key, v =>
      Key.sectionPrefix sect.toList <+: key.toList ∧ Shows contents d key v
  | inSections _ sections d, key, v =>
      (∃ sect ∈ sections, Key.sectionPrefix sect.toList <+: key.toList) ∧ Shows contents d key v
  | select _ test d, key, v => test key (v.value.getD "") = true ∧ Shows contents d key v
  | rename _ f d, key, v => key ≠ "" ∧ ∃ original found, Shows contents d original found ∧
      f original = some key ∧ v = { found with key } ∧
      ∀ k w, Shows contents d k w → f k = some key → original ≤ k
  | combine _ _ first rest, key, v => ShowsLast contents rest key v ∨
      (∀ w, ¬ ShowsLast contents rest key w) ∧ Shows contents first key v

/-- What the last one of several derived configurations shows that shows the key. -/
def ShowsLast (contents : ι → KeyMap PropertyValue) :
    List (Derivation ι) → String → PropertyValue → Prop
  | [], _, _ => False
  | d :: rest, key, v => ShowsLast contents rest key v ∨
      (∀ w, ¬ ShowsLast contents rest key w) ∧ Shows contents d key v

end

theorem inSection_eq [Monad m] (tag : Tag) (sect : String) (strip : Bool) (c : Configuration m) :
    c.inSection tag sect strip =
      if Key.sectionPrefix sect.toList = [] ∧ strip = false then c
      else c.withView (c.view.project tag (Key.sectionPrefix sect.toList) strip) := by
  simp [Configuration.inSection]

theorem context_inSection [Monad m] (tag : Tag) (sect : String) (strip : Bool)
    (c : Configuration m) : (c.inSection tag sect strip).context = c.context := by
  rw [inSection_eq]
  split
  · rfl
  · rfl

theorem combineContexts_ok (tag : Tag) {acc : Context (StateM σ)}
    {cs : List (Configuration (StateM σ))} (hacc : Context.Named acc.providers)
    (hcs : ∀ c ∈ cs, Context.Named c.context.providers) (s : σ) :
    ∃ context t, (Configuration.combineContexts tag acc cs).run.run s = (.ok context, t) ∧
      Context.Named context.providers := by
  induction cs generalizing acc s with
  | nil => exact ⟨acc, s, rfl, hacc⟩
  | cons c cs ih =>
      obtain ⟨hc, hcs⟩ := List.forall_mem_cons.1 hcs
      obtain ⟨context, t, hrun, hnamed⟩ := Context.combine_ok tag .override hacc hc s
      obtain ⟨context', t', hrun', hnamed'⟩ := ih hnamed hcs t
      exact ⟨context', t', (run_bind_of_ok hrun).trans hrun', hnamed'⟩

mutual

theorem build_ok {inputs : ι → Configuration (StateM σ)}
    (h : ∀ i, Context.Named (inputs i).context.providers) : (d : Derivation ι) → (s : σ) →
    ∃ c t, (d.build inputs).run.run s = (.ok c, t) ∧ Context.Named c.context.providers
  | input i, s => ⟨inputs i, s, by rw [build]; rfl, h i⟩
  | inSection tag sect strip d, s => by
      obtain ⟨c, t, hrun, hnamed⟩ := build_ok h d s
      rw [build]
      refine ⟨c.inSection tag sect strip, t, run_bind_of_ok hrun, ?_⟩
      rw [context_inSection]
      exact hnamed
  | inSections tag sections d, s => by
      obtain ⟨c, t, hrun, hnamed⟩ := build_ok h d s
      rw [build]
      exact ⟨_, t, run_bind_of_ok hrun, hnamed⟩
  | select tag test d, s => by
      obtain ⟨c, t, hrun, hnamed⟩ := build_ok h d s
      rw [build]
      exact ⟨_, t, run_bind_of_ok hrun, hnamed⟩
  | rename tag f d, s => by
      obtain ⟨c, t, hrun, hnamed⟩ := build_ok h d s
      rw [build]
      exact ⟨_, t, run_bind_of_ok hrun, hnamed⟩
  | combine tag name first rest, s => by
      obtain ⟨c, t, hfirst, hnamed⟩ := build_ok h first s
      obtain ⟨cs, u, hrest, hall⟩ := buildAll_ok h rest t
      have hnamed' : Context.Named { c.context with tag }.providers := hnamed
      obtain ⟨context, v, hcontext, hresult⟩ := combineContexts_ok tag hnamed' hall u
      rw [build]
      refine ⟨⟨context, .combine tag name ((c :: cs).map (·.view))⟩, v, ?_, hresult⟩
      rw [run_bind_of_ok hfirst, run_bind_of_ok hrest]
      exact run_bind_of_ok hcontext

theorem buildAll_ok {inputs : ι → Configuration (StateM σ)}
    (h : ∀ i, Context.Named (inputs i).context.providers) : (ds : List (Derivation ι)) → (s : σ) →
    ∃ cs t, (buildAll inputs ds).run.run s = (.ok cs, t) ∧
      ∀ c ∈ cs, Context.Named c.context.providers
  | [], s => ⟨[], s, by rw [buildAll]; rfl, nofun⟩
  | d :: ds, s => by
      obtain ⟨c, t, hrun, hnamed⟩ := build_ok h d s
      obtain ⟨cs, u, hrest, hall⟩ := buildAll_ok h ds t
      rw [buildAll]
      refine ⟨c :: cs, u, ?_, List.forall_mem_cons.2 ⟨hnamed, hall⟩⟩
      rw [run_bind_of_ok hrun, run_bind_of_ok hrest]
      rfl

end

variable [Setoid σ] {s : σ} {inputs : ι → Configuration (StateM σ)}
  {contents : ι → KeyMap PropertyValue}

theorem exists_inSection {c : Configuration (StateM σ)} {m : KeyMap PropertyValue}
    (h : c.view.Coherent s m) (tag : Tag) (sect : String) :
    ∃ m', (c.inSection tag sect false).view.Coherent s m' ∧ ∀ key v, m'.get? key = some v ↔
      Key.sectionPrefix sect.toList <+: key.toList ∧ m.get? key = some v := by
  rw [inSection_eq]
  split
  · rename_i hlead
    refine ⟨m, h, fun key v => ?_⟩
    rw [hlead.1]
    exact (and_iff_right List.nil_prefix).symm
  · refine ⟨_, h.project tag (Key.sectionPrefix sect.toList), fun key v => ?_⟩
    rw [KeyMap.get?_filter, Option.filter_eq_some_iff, List.isPrefixOf_iff_prefix, and_comm]

theorem exists_inSection_strip {c : Configuration (StateM σ)} {m : KeyMap PropertyValue}
    (h : c.view.Coherent s m) (tag : Tag) (sect : String) :
    ∃ m', (c.inSection tag sect true).view.Coherent s m' ∧ ∀ key v, m'.get? key = some v ↔
      key ≠ "" ∧ ∃ found, v = { found with key } ∧
        m.get? (String.ofList (Key.sectionPrefix sect.toList) ++ key) = some found := by
  obtain ⟨m', hm', hget⟩ := h.projectStripped tag (Key.sectionPrefix sect.toList)
  refine ⟨m', ?_, fun key v => ?_⟩
  · rw [inSection_eq, if_neg (by simp)]
    exact hm'
  · rw [hget]
    split
    · rename_i hkey
      simp [hkey]
    · rename_i hkey
      rw [Option.map_eq_some_iff, and_iff_right hkey]
      constructor
      · rintro ⟨found, hfound, rfl⟩
        exact ⟨found, rfl, hfound⟩
      · rintro ⟨found, rfl, hfound⟩
        exact ⟨found, hfound, rfl⟩

theorem exists_select {c : Configuration (StateM σ)} {m : KeyMap PropertyValue}
    (h : c.view.Coherent s m) (tag : Tag) (test : String → String → Bool) :
    ∃ m', (c.select tag test).view.Coherent s m' ∧ ∀ key v, m'.get? key = some v ↔
      test key (v.value.getD "") = true ∧ m.get? key = some v := by
  refine ⟨_, h.select tag test, fun key v => ?_⟩
  rw [KeyMap.get?_filter, Option.filter_eq_some_iff, and_comm]

theorem inSections_iff {key : String} {sections : List String} :
    Key.inSections key sections = true ↔
      ∃ sect ∈ sections, Key.sectionPrefix sect.toList <+: key.toList := by
  simp [Key.inSections, Key.inSection]

theorem findSome?_cons_last {m : KeyMap PropertyValue} {ms : List (KeyMap PropertyValue)}
    {key : String} {last : PropertyValue → Prop}
    (hlast : ∀ v, ms.reverse.findSome? (·.get? key) = some v ↔ last v) (v : PropertyValue) :
    (m :: ms).reverse.findSome? (·.get? key) = some v ↔
      last v ∨ (∀ w, ¬ last w) ∧ m.get? key = some v := by
  have hnone : (∀ w, ¬ last w) ↔ ms.reverse.findSome? (·.get? key) = none := by
    rw [Option.eq_none_iff_forall_ne_some]
    exact forall_congr' fun w => not_congr (hlast w).symm
  rw [List.reverse_cons, List.findSome?_append, Option.or_eq_some_iff, hlast, hnone,
    List.findSome?_singleton]

omit [Setoid σ] in
theorem combine_view {tag : Tag} {name : String} {cs : List (Configuration (StateM σ))} {u t : σ}
    {c : Configuration (StateM σ)}
    (h : (Configuration.combine tag name cs).run.run u = (.ok c, t)) :
    c.view = .combine tag name (cs.map (·.view)) := by
  cases cs with
  | nil => cases h
  | cons first rest =>
      obtain ⟨context, v, -, hlast⟩ := exists_run_of_bind_ok h
      cases hlast
      rfl

mutual

theorem coherent_build (h : ∀ i, (inputs i).view.Coherent s (contents i)) :
    (d : Derivation ι) → {u t : σ} → {c : Configuration (StateM σ)} →
    (d.build inputs).run.run u = (.ok c, t) →
    ∃ m, c.view.Coherent s m ∧ ∀ key v, m.get? key = some v ↔ d.Shows contents key v
  | input i, u, t, c, hrun => by
      rw [build] at hrun
      cases hrun
      exact ⟨contents i, h i, fun key v => by rw [Shows]⟩
  | inSection tag sect strip d, u, t, c, hrun => by
      rw [build] at hrun
      obtain ⟨c', w, hd, hlast⟩ := exists_run_of_bind_ok hrun
      cases hlast
      obtain ⟨m, hm, hshows⟩ := coherent_build h d hd
      cases strip with
      | false =>
          obtain ⟨m', hm', hget⟩ := exists_inSection hm tag sect
          exact ⟨m', hm', fun key v => by rw [hget, Shows, hshows]⟩
      | true =>
          obtain ⟨m', hm', hget⟩ := exists_inSection_strip hm tag sect
          exact ⟨m', hm', fun key v => by rw [hget, Shows]; simp only [hshows]⟩
  | inSections tag sections d, u, t, c, hrun => by
      rw [build] at hrun
      obtain ⟨c', w, hd, hlast⟩ := exists_run_of_bind_ok hrun
      cases hlast
      obtain ⟨m, hm, hshows⟩ := coherent_build h d hd
      obtain ⟨m', hm', hget⟩ := exists_select hm tag fun key _ => Key.inSections key sections
      exact ⟨m', hm', fun key v => by rw [hget, Shows, hshows, inSections_iff]⟩
  | select tag test d, u, t, c, hrun => by
      rw [build] at hrun
      obtain ⟨c', w, hd, hlast⟩ := exists_run_of_bind_ok hrun
      cases hlast
      obtain ⟨m, hm, hshows⟩ := coherent_build h d hd
      obtain ⟨m', hm', hget⟩ := exists_select hm tag test
      exact ⟨m', hm', fun key v => by rw [hget, Shows, hshows]⟩
  | rename tag f d, u, t, c, hrun => by
      rw [build] at hrun
      obtain ⟨c', w, hd, hlast⟩ := exists_run_of_bind_ok hrun
      cases hlast
      obtain ⟨m, hm, hshows⟩ := coherent_build h d hd
      obtain ⟨m', hm', hget⟩ := hm.rename tag f
      exact ⟨m', hm', fun key v => by rw [hget, Shows]; simp only [hshows, View.moved]⟩
  | combine tag name first rest, u, t, c, hrun => by
      rw [build] at hrun
      obtain ⟨c', w, hfirst, hrun⟩ := exists_run_of_bind_ok hrun
      obtain ⟨cs, w', hrest, hrun⟩ := exists_run_of_bind_ok hrun
      obtain ⟨m, hm, hshows⟩ := coherent_build h first hfirst
      obtain ⟨ms, hms, hlast⟩ := coherent_buildAll h rest hrest
      obtain ⟨m', hm', hget⟩ := View.Layers.combine (.cons hm hms) tag name
      refine ⟨m', combine_view hrun ▸ hm', fun key v => ?_⟩
      rw [hget, findSome?_cons_last (hlast key), Shows, hshows]

theorem coherent_buildAll (h : ∀ i, (inputs i).view.Coherent s (contents i)) :
    (ds : List (Derivation ι)) → {u t : σ} → {cs : List (Configuration (StateM σ))} →
    (buildAll inputs ds).run.run u = (.ok cs, t) →
    ∃ ms, View.Layers s (cs.map (·.view)) ms ∧ ∀ key v,
      ms.reverse.findSome? (·.get? key) = some v ↔ ShowsLast contents ds key v
  | [], u, t, cs, hrun => by
      rw [buildAll] at hrun
      cases hrun
      exact ⟨[], .nil, fun key v => by rw [ShowsLast]; exact iff_of_false nofun id⟩
  | d :: ds, u, t, cs, hrun => by
      rw [buildAll] at hrun
      obtain ⟨c, w, hfirst, hrun⟩ := exists_run_of_bind_ok hrun
      obtain ⟨cs', w', hrest, hrun⟩ := exists_run_of_bind_ok hrun
      cases hrun
      obtain ⟨m, hm, hshows⟩ := coherent_build h d hfirst
      obtain ⟨ms, hms, hlast⟩ := coherent_buildAll h ds hrest
      refine ⟨m :: ms, .cons hm hms, fun key v => ?_⟩
      rw [findSome?_cons_last (hlast key), ShowsLast, hshows]

end

/-- A configuration derived in any way from coherent ones is coherent, and shows what the derivation
says; and every derivation from configurations whose providers have different names succeeds. -/
theorem derived_coherent (h : ∀ i, (inputs i).view.Coherent s (contents i)) (d : Derivation ι) :
    (∀ u c t, (d.build inputs).run.run u = (.ok c, t) →
      ∃ m, c.view.Coherent s m ∧ ∀ key v, m.get? key = some v ↔ d.Shows contents key v) ∧
    ((∀ i, Context.Named (inputs i).context.providers) →
      ∀ u, ∃ c t, (d.build inputs).run.run u = (.ok c, t)) := by
  refine ⟨fun u c t hrun => coherent_build h d hrun, ?_⟩
  intro hnamed u
  obtain ⟨c, t, hrun, -⟩ := build_ok hnamed d u
  exact ⟨c, t, hrun⟩

end Derivation

section
variable {σ : Type} [Setoid σ] {s : σ} {c : Context (StateM σ)}

theorem Context.Undisturbed.gives_resolveAll (h : c.Undisturbed) {m : KeyMap PropertyValue}
    (hm : outcome c.resolveAll.run s = .ok m) : Gives c.resolveAll.run s (.ok m) := by
  have hcollect : Steady (collect .empty c.providers).run := steady_collect h.listings .empty
  have hsteady : Steady c.resolveAll.run :=
    hcollect.bindExcept fun raw => (h.filterAll .empty raw.entries).lift
  rw [← hm]
  exact .of_steady hsteady s

theorem Context.Undisturbed.steady_resolve (h : c.Undisturbed) (key : String) :
    Steady (c.resolve key) := by
  refine (steady_firstAnswer key h.providers).bind fun r => ?_
  cases r with
  | none => exact .pure none
  | some v => exact h.chain key none v

/-- A context shows itself coherently if all of its providers are listed as they answer, and each
value that it lists stands under its own key. -/
theorem View.coherent_ofContext (h : c.Undisturbed) (hblind : ∀ f ∈ c.filters, f.Blind)
    (hlisted : ∀ p ∈ c.providers, p.scannable = true ∧ p.Consistent s) {m : KeyMap PropertyValue}
    (hm : outcome c.resolveAll.run s = .ok m)
    (hkeys : ∀ key v, m.get? key = some v → key ≠ "" ∧ v.key = key) (tag : Tag) :
    (View.ofContext tag c).Coherent s m := by
  refine ⟨h.gives_resolveAll hm, ?_, hkeys⟩
  intro key _
  have hall : c.providers.filter (·.scannable) = c.providers :=
    List.filter_eq_self.2 fun p hp => (hlisted p hp).1
  have hvalue : m.get? key = outcome (c.resolve key) s := by
    rw [(Context.resolveAll_ok h hblind (fun p hp _ => (hlisted p hp).2) hm).2 key, hall,
      Context.outcome_resolve h]
  rw [hvalue]
  exact (Gives.of_steady (h.steady_resolve key) s).lift

end

namespace MemoryProvider

theorem get?_of_valuesOf {name : String} {acc m : KeyMap PropertyValue}
    {l : List (String × Option String)} (h : valuesOf name acc l = .ok m) (key : String) :
    (KeyMap.lookup key l.reverse = none ∧ m.get? key = acc.get? key) ∨
      ∃ payload v, KeyMap.lookup key l.reverse = some payload ∧
        PropertyValue.create key payload name = .ok v ∧ m.get? key = some v := by
  induction l generalizing acc with
  | nil =>
      cases h
      exact .inl ⟨rfl, rfl⟩
  | cons e l ih =>
      obtain ⟨k, payload⟩ := e
      rw [valuesOf] at h
      cases hv : PropertyValue.create k payload name with
      | error e =>
          rw [hv] at h
          cases h
      | ok v =>
          rw [hv] at h
          rw [List.reverse_cons, KeyMap.lookup_append]
          rcases ih h with ⟨hnone, hget⟩ | ⟨payload', v', hsome, hv', hget⟩
          · rw [hnone, hget, KeyMap.get?_insert, KeyMap.lookup]
            by_cases hk : k = key
            · subst hk
              exact .inr ⟨payload, v, if_pos rfl, hv, if_pos rfl⟩
            · exact .inl ⟨if_neg hk, if_neg hk⟩
          · exact .inr ⟨payload', v', by rw [hsome]; rfl, hv', hget⟩

theorem answer_eq (p : MemoryProvider) (key : String) (w : World) :
    p.toProvider.answer key w = match (w.memory p.tag).get? key with
      | some payload => (PropertyValue.create key payload p.name).map some
      | none => .ok none := by
  change outcome (ExceptT.run (do
    match (w.memory p.tag).get? key with
    | some payload => return some (← PropertyValue.create key payload p.name)
    | none => return none : ExceptT ConfigError Act _)) w = _
  cases (w.memory p.tag).get? key with
  | none => rfl
  | some payload =>
      dsimp only
      cases PropertyValue.create key payload p.name with
      | error e => rfl
      | ok v => rfl

theorem consistent (p : MemoryProvider) (w : World) : p.toProvider.Consistent w := by
  intro m hm key
  have hvalues : valuesOf p.name .empty (w.memory p.tag).entries = .ok m := hm
  rw [answer_eq]
  rcases get?_of_valuesOf hvalues key with ⟨hnone, hget⟩ | ⟨payload, v, hsome, hv, hget⟩
  · rw [KeyMap.lookup_reverse (w.memory p.tag).sorted] at hnone
    rw [KeyMap.get?, hnone, hget]
    rfl
  · rw [KeyMap.lookup_reverse (w.memory p.tag).sorted] at hsome
    rw [KeyMap.get?, hsome, hget]
    dsimp only
    rw [hv]
    rfl

end MemoryProvider

namespace Sample

def memoryOnly (tag : Tag) (name : String) : Configuration Act :=
  .ofContext 2 ⟨2, [(MemoryProvider.mk tag name 0 true false none).toProvider], [], []⟩

def shelf : Bool → Configuration Act
  | true => memoryOnly 0 "top"
  | false => memoryOnly 1 "base"

def shelves : World :=
  ((World.initial "/").setMemory 0 (.ofList [("app.host", some "a"), ("app.port", none)])).setMemory
    1 (.ofList [("any", some "b")])

def shelfContents : Bool → KeyMap PropertyValue
  | true => .ofList [("app.host", ⟨"app.host", some "a", "top", .empty⟩),
      ("app.port", ⟨"app.port", none, "top", .empty⟩)]
  | false => .ofList [("any", ⟨"any", some "b", "base", .empty⟩)]

/-- Both keys of a section get one name, and lie over an entry of this name. -/
def piled : Derivation Bool :=
  .combine 3 "piled" (.input false)
    [.rename 4 (fun _ => some "any") (.inSection 5 "app" true (.input true))]

theorem coherent_memoryOnly {tag : Tag} {name : String} {w : World} {m : KeyMap PropertyValue}
    (hm : outcome (memoryOnly tag name).context.resolveAll.run w = .ok m)
    (hkeys : ∀ e ∈ m.entries, e.1 ≠ "" ∧ e.2.key = e.1) :
    letI := World.alike fun _ _ _ => .ok .empty
    (memoryOnly tag name).view.Coherent w m := by
  let := World.alike fun _ _ _ => .ok .empty
  have hsteady := MemoryProvider.steady (fun _ _ _ => .ok .empty) ⟨tag, name, 0, true, false, none⟩
  have hundisturbed : (memoryOnly tag name).context.Undisturbed :=
    ⟨List.forall_mem_singleton.2 hsteady.1, List.forall_mem_singleton.2 hsteady.2, nofun⟩
  refine View.coherent_ofContext hundisturbed nofun
    (List.forall_mem_singleton.2 ⟨rfl, MemoryProvider.consistent _ w⟩) hm ?_ 2
  intro key v hv
  exact hkeys (key, v) (KeyMap.get?_eq_some_iff.1 hv)

theorem piled_shows_smallest :
    ∃ c w, (piled.build shelf).run.run shelves = (.ok c, w) ∧
      outcome (c.view.get "any").run shelves = .ok (some ⟨"any", some "a", "top", .empty⟩) := by
  let := World.alike fun _ _ _ => .ok .empty
  have hcoherent : ∀ i, (shelf i).view.Coherent shelves (shelfContents i) := by
    intro i
    cases i with
    | true => exact coherent_memoryOnly rfl (by decide)
    | false => exact coherent_memoryOnly rfl (by decide)
  have hnamed : ∀ i, Context.Named (shelf i).context.providers := by
    intro i
    cases i with
    | true => exact ⟨by decide, by decide⟩
    | false => exact ⟨by decide, by decide⟩
  obtain ⟨hshown, hok⟩ := Derivation.derived_coherent hcoherent piled
  obtain ⟨c, w, hrun⟩ := hok hnamed shelves
  obtain ⟨m, hm, hget⟩ := hshown shelves c w hrun
  refine ⟨c, w, hrun, ?_⟩
  have hshows : piled.Shows shelfContents "any" ⟨"any", some "a", "top", .empty⟩ := by
    simp only [piled, Derivation.Shows, Derivation.ShowsLast, false_or, not_false_eq_true,
      implies_true, true_and]
    refine .inl ⟨by decide, "host", ⟨"host", some "a", "top", .empty⟩, ?_, rfl, ?_⟩
    · exact ⟨by decide, ⟨"app.host", some "a", "top", .empty⟩, rfl, by decide⟩
    · rintro k v ⟨-, found, -, hfound⟩ -
      have hmem := KeyMap.get?_eq_some_iff.1 hfound
      rcases List.mem_cons.1 hmem with hhost | hmem
      · have hk : "app." ++ k = "app." ++ "host" := congrArg (·.1) hhost
        have hkey : k = "host" := (String.append_right_inj "app.").1 hk
        subst hkey
        exact String.le_refl "host"
      · have hk : "app." ++ k = "app." ++ "port" := congrArg (·.1) (List.mem_singleton.1 hmem)
        have hkey : k = "port" := (String.append_right_inj "app.").1 hk
        subst hkey
        decide
  rw [(hm.get "any" (by decide)).outcome_eq, (hget "any" _).2 hshows]

end Sample

end LayeredConfig

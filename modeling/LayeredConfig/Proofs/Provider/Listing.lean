import LayeredConfig.Bridge.Provider
import LayeredConfig.Proofs.Change.Backends
import LayeredConfig.Proofs.File.Inquiry
import LayeredConfig.Proofs.Lookup.Gives
import LayeredConfig.Sample.Host

/-!
What the library's own providers list. Each of them makes values of what it holds, for a look-up of
one payload and for a listing of all. No value has the empty key, so that one payload under it makes
the whole listing fail. The provider of variables leaves such an entry out, and a file provider
drops it when it reads the file; a memory provider and the native side of a host source keep it.
-/

namespace LayeredConfig

variable {σ : Type}

def KeyMap.valuesFrom (source : String) (content : KeyMap (Option String)) : KeyMap PropertyValue :=
  content.map fun key payload => ⟨key, payload, source, .empty⟩

namespace MemoryProvider

variable {source : String} {l : List (String × Option String)}

theorem valuesOf_eq_ok (hsource : source ≠ "") (hkeys : ∀ e ∈ l, e.1 ≠ "")
    (acc : KeyMap PropertyValue) : valuesOf source acc l =
      .ok (acc.insertAll (l.map fun e => (e.1, ⟨e.1, e.2, source, .empty⟩))) := by
  induction l generalizing acc with
  | nil => rfl
  | cons e l ih =>
      obtain ⟨key, payload⟩ := e
      obtain ⟨hkey, hkeys⟩ := List.forall_mem_cons.1 hkeys
      have hvalue : PropertyValue.create key payload source = .ok ⟨key, payload, source, .empty⟩ :=
        PropertyValue.create_eq_ok_iff.2 ⟨hkey, hsource, rfl⟩
      rw [valuesOf, hvalue]
      exact ih hkeys _

theorem valuesOf_eq_error (hsource : source ≠ "") (hkey : ∃ e ∈ l, e.1 = "")
    (acc : KeyMap PropertyValue) : valuesOf source acc l = .error (.argument .emptyKey) := by
  induction l generalizing acc with
  | nil =>
      obtain ⟨e, he, -⟩ := hkey
      cases he
  | cons e l ih =>
      obtain ⟨key, payload⟩ := e
      by_cases hempty : key = ""
      · subst hempty
        rfl
      · have hvalue : PropertyValue.create key payload source =
            .ok ⟨key, payload, source, .empty⟩ :=
          PropertyValue.create_eq_ok_iff.2 ⟨hempty, hsource, rfl⟩
        obtain ⟨found, hmem, hfound⟩ := hkey
        rw [valuesOf, hvalue]
        rcases List.mem_cons.1 hmem with rfl | hmem
        · exact absurd hfound hempty
        · exact ih ⟨found, hmem, hfound⟩ _

end MemoryProvider

theorem PropertyValue.mapOf_eq_valuesOf (entries : List (String × String)) (source : String) :
    mapOf entries source =
      MemoryProvider.valuesOf source .empty (entries.map fun e => (e.1, some e.2)) := by
  suffices hgo : ∀ acc, mapOf.go source acc entries =
      MemoryProvider.valuesOf source acc (entries.map fun e => (e.1, some e.2)) from hgo .empty
  induction entries with
  | nil =>
      intro acc
      rfl
  | cons e entries ih =>
      intro acc
      obtain ⟨key, text⟩ := e
      rw [mapOf.go, List.map_cons, MemoryProvider.valuesOf]
      change of key text source >>= _ = of key text source >>= _
      cases of key text source with
      | error e => rfl
      | ok v => exact ih _

theorem KeyMap.get?_ne_none_iff {β : Type} {m : KeyMap β} {key : String} :
    m.get? key ≠ none ↔ ∃ e ∈ m.entries, e.1 = key := by
  rw [get?, Ne, lookup_eq_none_iff]
  push Not
  rfl

namespace Provider

variable [Setoid σ] {p : Provider (StateM σ)} {s : σ} {content : KeyMap (Option String)}

/-- In the states alike to `s`, a provider lists the entries of a map, each with the provider's name
under the key of its value, and it answers a look-up as the map does. -/
structure Lists (p : Provider (StateM σ)) (s : σ) (m : KeyMap PropertyValue) : Prop where
  properties : Gives p.properties.run s (.ok m)
  get : ∀ key, key ≠ "" → Gives (p.get key).run s (.ok (m.get? key))
  own : ∀ key v, m.get? key = some v → v.key = key ∧ v.source = p.name

/-- In the states alike to `s`, a provider makes values of some content: of one payload when a key
is looked up, and of all to list them. -/
structure MakesOf (p : Provider (StateM σ)) (s : σ) (content : KeyMap (Option String)) : Prop where
  properties : Gives p.properties.run s (MemoryProvider.valuesOf p.name .empty content.entries)
  get : ∀ key, key ≠ "" → Gives (p.get key).run s (match content.get? key with
    | some payload => (PropertyValue.create key payload p.name).map some
    | none => .ok none)

theorem MakesOf.lists (h : p.MakesOf s content) (hname : p.name ≠ "")
    (hkeys : content.get? "" = none) : p.Lists s (content.valuesFrom p.name) := by
  have hentries : ∀ e ∈ content.entries, e.1 ≠ "" := KeyMap.lookup_eq_none_iff.1 hkeys
  have hlisted : MemoryProvider.valuesOf p.name .empty content.entries =
      .ok (content.valuesFrom p.name) := by
    rw [MemoryProvider.valuesOf_eq_ok hname hentries]
    exact congrArg Except.ok (KeyMap.ofList_entries (content.valuesFrom p.name))
  refine ⟨hlisted ▸ h.properties, ?_, ?_⟩
  · intro key hkey
    have hget := h.get key hkey
    rw [KeyMap.valuesFrom, KeyMap.get?_map]
    cases hpayload : content.get? key with
    | none =>
        rw [hpayload] at hget
        exact hget
    | some payload =>
        have hvalue : PropertyValue.create key payload p.name =
            .ok ⟨key, payload, p.name, .empty⟩ :=
          PropertyValue.create_eq_ok_iff.2 ⟨hkey, hname, rfl⟩
        rw [hpayload] at hget
        dsimp only at hget
        rw [hvalue] at hget
        exact hget
  · intro key v hv
    rw [KeyMap.valuesFrom, KeyMap.get?_map, Option.map_eq_some_iff] at hv
    obtain ⟨payload, -, rfl⟩ := hv
    exact ⟨rfl, rfl⟩

theorem MakesOf.fails (h : p.MakesOf s content) (hname : p.name ≠ "")
    (hkey : content.get? "" ≠ none) :
    Gives p.properties.run s (.error (.argument .emptyKey)) := by
  rw [← MemoryProvider.valuesOf_eq_error hname (KeyMap.get?_ne_none_iff.1 hkey) .empty]
  exact h.properties

theorem gives_except {α : Type} (r : Except ConfigError α) (s : σ) :
    Gives (r : ExceptT ConfigError (StateM σ) α).run s r := by
  cases r with
  | error e => exact .pure _ s
  | ok a => exact .pure _ s

theorem gives_made (r : Except ConfigError PropertyValue) (s : σ) :
    Gives (do return some (← r) : ExceptT ConfigError (StateM σ) (Option PropertyValue)).run s
      (r.map some) := by
  cases r with
  | error e => exact .pure _ s
  | ok v => exact .pure _ s

theorem MakesOf.of_texts {texts : KeyMap String}
    (hproperties : Gives p.properties.run s (PropertyValue.mapOf texts.entries p.name))
    (hget : ∀ key, key ≠ "" → Gives (p.get key).run s (match texts.get? key with
      | some text => (PropertyValue.of key text p.name).map some
      | none => .ok none)) : p.MakesOf s (texts.map fun _ text => some text) := by
  refine ⟨?_, ?_⟩
  · rw [PropertyValue.mapOf_eq_valuesOf] at hproperties
    exact hproperties
  · intro key hkey
    have hkey := hget key hkey
    rw [KeyMap.get?_map]
    cases htext : texts.get? key with
    | none =>
        rw [htext] at hkey
        exact hkey
    | some text =>
        rw [htext] at hkey
        exact hkey

end Provider

theorem MemoryProvider.makesOf (reading : Reading) (p : MemoryProvider) (w : World) :
    letI := World.alike reading
    p.toProvider.MakesOf w (w.memory p.tag) := by
  let := World.alike reading
  have hcontent : Gives p.content w (w.memory p.tag) := by
    intro w' hw'
    have hmemory : w'.memory = w.memory := hw'.2.2.1
    refine ⟨w', hw', ?_⟩
    rw [← hmemory]
    rfl
  refine ⟨hcontent.lift.bindExcept (Provider.gives_except _ w), ?_⟩
  intro key _
  refine hcontent.lift.bindExcept ?_
  cases (w.memory p.tag).get? key with
  | none => exact .ok none w
  | some payload => exact Provider.gives_made _ w

namespace VariableProvider

abbrev reading (p : VariableProvider) : Reading :=
  fun _ _ assignments => .ok (readVariables p.mapping assignments)

def current (p : VariableProvider) (w : World) : KeyMap String :=
  (w.snapshots p.tag).getD (readVariables p.mapping w.assignments)

theorem gives_entries (p : VariableProvider) (w : World) :
    letI := World.alike p.reading
    Gives (ExceptT.lift p.entries : ExceptT ConfigError Act _).run w (.ok (p.current w)) := by
  let := World.alike p.reading
  have hkeeps := @keeps_entries p.reading p fun _ _ => rfl
  have hgives := Gives.of_steady hkeeps.steady w
  rw [(hkeeps w).1, World.kept] at hgives
  rw [current]
  cases hkept : w.snapshots p.tag with
  | none =>
      rw [hkept] at hgives
      exact hgives
  | some entries =>
      rw [hkept] at hgives
      exact hgives

/-- An entry under the empty key is held, and left out of the listing. -/
theorem makesOf (p : VariableProvider) (w : World) :
    letI := World.alike p.reading
    p.toProvider.MakesOf w (((p.current w).erase "").map fun _ text => some text) := by
  let := World.alike p.reading
  refine .of_texts ((p.gives_entries w).bindExcept ?_) fun key hkey => ?_
  · have hfilter : (p.current w).entries.filter (·.1 ≠ "") = ((p.current w).erase "").entries :=
      List.filter_congr fun e _ => by simp only [bne, beq_eq_decide, decide_not, ne_eq]
    rw [hfilter]
    exact Provider.gives_except _ w
  · refine (p.gives_entries w).bindExcept ?_
    rw [KeyMap.get?_erase, if_neg (Ne.symm hkey)]
    cases (p.current w).get? key with
    | none => exact .ok none w
    | some text => exact Provider.gives_made _ w

end VariableProvider

namespace FileProvider

abbrev reading (p : FileProvider) : Reading := fun _ files _ => p.read files

variable {p : FileProvider} {w : World}

theorem gives_entries {entries : KeyMap String} (h : p.current w = .ok entries) :
    letI := World.alike p.reading
    Gives p.entries.run w (.ok entries) := by
  let := World.alike p.reading
  have hkeeps := @keeps_entries p.reading p fun _ _ => rfl
  have hgives := Gives.of_steady hkeeps.steady w
  rw [(hkeeps w).1] at hgives
  rw [current] at h
  rw [h] at hgives
  exact hgives

theorem makesOf {entries : KeyMap String} (h : p.current w = .ok entries) :
    letI := World.alike p.reading
    p.toProvider.MakesOf w (entries.map fun _ text => some text) := by
  let := World.alike p.reading
  refine .of_texts ((gives_entries h).bindExcept (Provider.gives_except _ w)) fun key _ => ?_
  refine (gives_entries h).bindExcept ?_
  cases entries.get? key with
  | none => exact .ok none w
  | some text => exact Provider.gives_made _ w

/-- A file provider with what it has kept of its file. It is undisturbed as long as nothing else
touches that; the file may be changed at any time. -/
def asCache (p : FileProvider) : Backend Unit Inquiry World String where
  payload := id
  content w := (w.snapshots p.tag).getD .empty
  openRequest _ := p.openRequest
  access q := do let _ ← p.ask q
  updates _ := []
  undisturbed w w' := w'.snapshots p.tag = w.snapshots p.tag

def KeepsNamed (p : FileProvider) (w : World) : Prop :=
  ∀ entries, w.snapshots p.tag = some entries → entries.get? "" = none

theorem parse_named {text : String} {entries : KeyMap String} (h : p.parse text = .ok entries) :
    entries.get? "" = none := by
  rw [parse_eq_ok h, DocumentFormat.entriesOf]
  split
  · rw [KeyMap.get?_erase, if_pos rfl]
  · rfl

theorem read_named {fs : FileSystem} {entries : KeyMap String} (h : p.read fs = .ok entries) :
    entries.get? "" = none := by
  rw [read] at h
  split at h
  · cases h
    rfl
  · cases h
  · dsimp only at h
    split at h
    · cases h
    · split at h
      · cases h
      · exact parse_named h

theorem KeepsNamed.of_current (h : p.KeepsNamed w) {entries : KeyMap String}
    (hcurrent : p.current w = .ok entries) : entries.get? "" = none := by
  cases hkept : w.snapshots p.tag with
  | some kept =>
      rw [current_of_some hkept] at hcurrent
      cases hcurrent
      exact h _ hkept
  | none =>
      rw [current_of_none hkept] at hcurrent
      exact read_named hcurrent

theorem keepsNamed_setSnapshot {entries : KeyMap String} (h : entries.get? "" = none) (w : World) :
    p.KeepsNamed (w.setSnapshot p.tag (some entries)) := by
  intro kept hkept
  rw [World.snapshots_setSnapshot, if_pos rfl] at hkept
  cases hkept
  exact h

theorem KeepsNamed.after_entries (h : p.KeepsNamed w) : p.KeepsNamed (after p.entries.run w) := by
  have hrun := p.entries_run w
  rw [after, hrun]
  cases w.snapshots p.tag with
  | some entries => exact h
  | none =>
      cases hread : p.read w.files with
      | error e => exact h
      | ok entries => exact keepsNamed_setSnapshot (read_named hread) w

theorem KeepsNamed.after_ask (h : p.KeepsNamed w) (q : Inquiry) :
    p.KeepsNamed (after (p.ask q).run w) := by
  by_cases hq : q = .reload
  · subst hq
    intro entries hkept
    change (if p.tag = p.tag then none else w.snapshots p.tag) = some entries at hkept
    rw [if_pos rfl] at hkept
    cases hkept
  · have hrun := p.run_entries_bind w fun entries => p.answerFrom (.ok entries) q
    rw [← p.ask_eq_bind hq] at hrun
    rw [after, hrun]
    exact h.after_entries

theorem KeepsNamed.persisting (h : p.KeepsNamed w) {changes : ChangeSet} (hproper : changes.Proper)
    {result : Except ConfigError Unit} {w' : World}
    (hpersisting : p.Persisting changes w result w') :
    p.KeepsNamed w' := by
  cases hpersisting with
  | unread _ => exact h
  | unwritten _ _ => exact h
  | written hread _ =>
      refine keepsNamed_setSnapshot ?_ _
      rw [ChangeSet.applyTo_eq_writeTo]
      exact hproper.get?_writeTo_empty id (read_named hread)

theorem preserves_keepsNamed (p : FileProvider) : p.asCache.Preserves p.KeepsNamed := by
  refine ⟨?_, ?_, ?_⟩
  · intro w w' h hsame entries hkept
    exact h entries (hsame ▸ hkept)
  · intro _ w result w' h hrun
    change p.openRequest.run.run w = _ at hrun
    rw [openRequest_run] at hrun
    split at hrun
    · cases hrun
      refine ⟨h, ?_⟩
      rintro r hr
      cases hr
      refine ⟨.empty, ?_⟩
      intro changes u answer v hproper hu hpersist
      exact hu.persisting hproper (persisting_of_run hpersist)
    · cases hrun
      exact ⟨h, nofun⟩
  · intro q w result w' h hrun
    have hafter : after (p.ask q).run w = w' := by
      rw [← after_discard]
      exact congrArg (·.2) hrun
    exact hafter ▸ h.after_ask q

end FileProvider

theorem Bridge.makesOf_wrapSource [Setoid σ] {source : HostSource (StateM σ)} {s : σ}
    {texts : KeyMap String} (hproperties : Gives source.properties s texts)
    (hvalue : ∀ key, key ≠ "" → Gives (source.value key) s (texts.get? key)) (tag : Tag) :
    (wrapSource tag source).MakesOf s (texts.map fun _ text => some text) := by
  refine .of_texts (hproperties.lift.bindExcept (Provider.gives_except _ s)) fun key hkey => ?_
  refine (hvalue key hkey).lift.bindExcept ?_
  cases texts.get? key with
  | none => exact .ok none s
  | some text => exact Provider.gives_made _ s

/-- What the library's own providers list, asked at any time: all that they hold, each value under
its key and with the provider's name, and the same that a look-up answers. A payload under the empty
key makes the listing of a memory provider fail, and that of the native side of a host source. The
provider of variables lists everything else, and a file provider never comes to hold one, whatever
is done with it and its file. -/
theorem Provider.lists_named (memory : MemoryProvider) (environment : VariableProvider)
    (file : FileProvider) {σ : Type} [Setoid σ] (source : HostSource (StateM σ)) :
    (memory.name ≠ "" → ∀ (reading : Reading) w,
      letI := World.alike reading
      let content := w.memory memory.tag
      (content.get? "" = none → memory.toProvider.Lists w (content.valuesFrom memory.name)) ∧
        (content.get? "" ≠ none →
          Gives memory.toProvider.properties.run w (.error (.argument .emptyKey)))) ∧
    (∀ w, letI := World.alike environment.reading
      environment.toProvider.Lists w
        ((((environment.current w).erase "").map fun _ text => some text).valuesFrom
          VariableProvider.name)) ∧
    (file.name ≠ "" → ∀ start, start.snapshots file.tag = none →
      ∀ steps requests w, file.asCache.Session start steps requests w →
        ∀ entries, file.current w = .ok entries →
          letI := World.alike file.reading
          file.toProvider.Lists w ((entries.map fun _ text => some text).valuesFrom file.name)) ∧
    (source.name ≠ "" → ∀ tag s (texts : KeyMap String), Gives source.properties s texts →
      (∀ key, key ≠ "" → Gives (source.value key) s (texts.get? key)) →
        (texts.get? "" = none → (Bridge.wrapSource tag source).Lists s
          ((texts.map fun _ text => some text).valuesFrom source.name)) ∧
        (texts.get? "" ≠ none → Gives (Bridge.wrapSource tag source).properties.run s
          (.error (.argument .emptyKey)))) := by
  refine ⟨?_, ?_, ?_, ?_⟩
  · intro hname reading w
    let := World.alike reading
    have hmakes := memory.makesOf reading w
    exact ⟨fun hkeys => hmakes.lists hname hkeys, fun hkey => hmakes.fails hname hkey⟩
  · intro w
    let := World.alike environment.reading
    have hkeys :
        (((environment.current w).erase "").map fun _ text => some text).get? "" = none := by
      rw [KeyMap.get?_map, KeyMap.get?_erase, if_pos rfl]
      rfl
    have hname : VariableProvider.name ≠ "" := by decide
    exact (environment.makesOf w).lists hname hkeys
  · intro hname start hstart steps requests w hsession entries hcurrent
    let := World.alike file.reading
    have hfresh : file.KeepsNamed start := by
      intro kept hkept
      rw [hstart] at hkept
      cases hkept
    have hkeeps := hsession.invariant file.preserves_keepsNamed hfresh
    have hkeys : (entries.map fun _ text => some text).get? "" = none := by
      rw [KeyMap.get?_map, hkeeps.of_current hcurrent]
      rfl
    exact (FileProvider.makesOf hcurrent).lists hname hkeys
  · intro hname tag s texts hproperties hvalue
    have hmakes := Bridge.makesOf_wrapSource hproperties hvalue tag
    refine ⟨?_, ?_⟩
    · intro hkeys
      refine hmakes.lists hname ?_
      rw [KeyMap.get?_map, hkeys]
      rfl
    · intro hkey
      refine hmakes.fails hname ?_
      rw [KeyMap.get?_map]
      simpa using hkey

namespace Sample

/-- A change of a property file that is missing at first, and a look at the file anew. -/
def filled : List (SessionCall Unit Inquiry) :=
  [.access .properties, .openRequest (), .request 0 (.putAll [("a", "1"), ("b", "2")]),
    .request 0 .commit, .access .reload]

def notes : MemoryProvider := ⟨0, "notes", 0, true, false, none⟩

def shell : VariableProvider := ⟨1, VariableProvider.defaultMapping⟩

/-- A payload that is absent is listed, a variable is listed under its key, a file lists what was
committed to it, and a host source has its texts listed. -/
theorem notes_listed :
    (let w := (World.initial "/").setMemory 0 (.ofList [("a", some "1"), ("b", none)])
      ∃ m, outcome notes.toProvider.properties.run w = .ok m ∧ m.entries =
        [("a", ⟨"a", some "1", "notes", .empty⟩), ("b", ⟨"b", none, "notes", .empty⟩)]) ∧
    (let w := (World.initial "/").setVariable "a_b" (.text "1")
      ∃ m, outcome shell.toProvider.properties.run w = .ok m ∧ m.entries =
        [("a.b", ⟨"a.b", some "1", "environment-properties", .empty⟩)]) ∧
    (let w := (performAll (readers false).asCache.perform [] (World.initial "/work") filled).2.2
      ∃ m, outcome (readers false).toProvider.properties.run w = .ok m ∧ m.entries =
        [("a", ⟨"a", some "1", "plain", .empty⟩), ("b", ⟨"b", some "2", "plain", .empty⟩)]) ∧
    (let source : HostSource (StateM Unit) := hostSource 0 "first" 5 (.ofList [("k", "1")])
      ∃ m, outcome (Bridge.wrapSource 1 source).properties.run () = .ok m ∧
        m.entries = [("k", ⟨"k", some "1", "first", .empty⟩)]) := by
  let : Setoid Unit := ⟨Eq, eq_equivalence⟩
  obtain ⟨hmemory, hvariables, hfile, hhost⟩ := Provider.lists_named notes shell (readers false)
    (hostSource (m := StateM Unit) 0 "first" 5 (.ofList [("k", "1")]))
  refine ⟨?_, ?_, ?_, ?_⟩
  · intro w
    let := World.alike fun _ _ _ => .ok .empty
    obtain ⟨hlists, -⟩ := hmemory (by decide) (fun _ _ _ => .ok .empty) w
    exact ⟨_, (hlists rfl).properties.outcome_eq, rfl⟩
  · intro w
    let := World.alike shell.reading
    exact ⟨_, (hvariables w).properties.outcome_eq, by decide +kernel⟩
  · intro w
    let := World.alike (readers false).reading
    have hsession := (readers false).asCache.session_performAll (World.initial "/work") filled
    have hentries : ((readers false).current w).toOption.map (·.entries) =
        some [("a", "1"), ("b", "2")] := by
      decide +kernel
    cases hcurrent : (readers false).current w with
    | error e =>
        rw [hcurrent] at hentries
        cases hentries
    | ok entries =>
        rw [hcurrent] at hentries
        have hlists := hfile (by decide) _ rfl _ _ _ hsession entries hcurrent
        refine ⟨_, hlists.properties.outcome_eq, ?_⟩
        have hentries : entries.entries = [("a", "1"), ("b", "2")] := Option.some.inj hentries
        simp only [KeyMap.valuesFrom, KeyMap.map, hentries]
        rfl
  · intro source
    obtain ⟨hlists, -⟩ := hhost (by decide) 1 () _ (.pure _ ()) fun _ _ => .pure _ ()
    exact ⟨_, (hlists rfl).properties.outcome_eq, rfl⟩

/-- A memory provider takes an entry under the empty key, and then does not list the others. -/
theorem unnamed_unlisted :
    let made := (notes.make [("", some "x"), ("a", some "1")]).run (World.initial "/")
    made.1.name ≠ "" ∧
      outcome made.1.toProvider.properties.run made.2 = .error (.argument .emptyKey) ∧
      outcome (made.1.toProvider.get "a").run made.2 =
        .ok (some ⟨"a", some "1", "notes", .empty⟩) :=
  ⟨by decide, rfl, rfl⟩

end Sample

end LayeredConfig

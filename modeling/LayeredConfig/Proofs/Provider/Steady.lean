import LayeredConfig.Proofs.Lookup.Steady
import LayeredConfig.Provider.File
import LayeredConfig.Provider.Memory
import LayeredConfig.Provider.Variables
import LayeredConfig.Sample.Provider

/-!
The library's own providers are steady. Memory providers only read. A file provider and the provider
of variables fill a snapshot at the first look-up, so a world is alike to one in which snapshots are
filled with what their providers would read.
-/

namespace LayeredConfig

/-- What providers read, by their tags, from files and variables. -/
abbrev Reading :=
  Tag → FileSystem → List (String × Variable) → Except ConfigError (KeyMap String)

namespace World

/-- What the provider with a tag answers from: its snapshot, or else what it would read. -/
def kept (reading : Reading) (w : World) (tag : Tag) : Except ConfigError (KeyMap String) :=
  match w.snapshots tag with
  | some entries => .ok entries
  | none => reading tag w.files w.assignments

/-- Worlds are alike if they differ in nothing but snapshots that their providers would fill. -/
def alike (reading : Reading) : Setoid World where
  r w w' := w.files = w'.files ∧ w.assignments = w'.assignments ∧ w.memory = w'.memory ∧
    w.nextTag = w'.nextTag ∧ w.kept reading = w'.kept reading
  iseqv := {
    refl := fun _ => ⟨rfl, rfl, rfl, rfl, rfl⟩
    symm := fun ⟨a, b, c, d, e⟩ => ⟨a.symm, b.symm, c.symm, d.symm, e.symm⟩
    trans := fun ⟨a, b, c, d, e⟩ ⟨a', b', c', d', e'⟩ =>
      ⟨a.trans a', b.trans b', c.trans c', d.trans d', e.trans e'⟩ }

theorem kept_setSnapshot {reading : Reading} {w : World} {tag : Tag} {entries : KeyMap String}
    (h : w.kept reading tag = .ok entries) :
    (w.setSnapshot tag (some entries)).kept reading = w.kept reading := by
  funext t
  by_cases ht : t = tag
  · subst ht
    rw [h]
    simp [kept]
  · simp [kept, ht]
    rfl

end World

/-- An action reads the entries of the provider with a tag and keeps them. -/
def Keeps (reading : Reading) (tag : Tag) (x : Act (Except ConfigError (KeyMap String))) : Prop :=
  ∀ w, outcome x w = w.kept reading tag ∧
    (after x w = w ∨ ∃ entries, w.kept reading tag = .ok entries ∧
      after x w = w.setSnapshot tag (some entries))

theorem Keeps.steady {reading : Reading} {tag : Tag} {x : Act (Except ConfigError (KeyMap String))}
    (h : Keeps reading tag x) : letI := World.alike reading; Steady x := by
  let := World.alike reading
  intro w w' hw
  refine ⟨?_, ?_⟩
  · rw [(h w).1, (h w').1, hw.2.2.2.2]
  · rcases (h w).2 with hsame | ⟨entries, hkept, hset⟩
    · exact alike_of_eq hsame
    · rw [hset]
      exact ⟨rfl, rfl, rfl, rfl, World.kept_setSnapshot hkept⟩

theorem steady_checked {σ : Type} [Setoid σ] (r : Except ConfigError PropertyValue) :
    Steady (do return some (← r) : ExceptT ConfigError (StateM σ) (Option PropertyValue)).run :=
  .bindExcept (.pure r) fun _ => .pure _

namespace FileProvider

theorem entries_run (p : FileProvider) (w : World) :
    p.entries.run.run w =
      match w.snapshots p.tag with
      | some entries => (.ok entries, w)
      | none =>
        match p.read w.files with
        | .ok entries => (.ok entries, w.setSnapshot p.tag (some entries))
        | .error e => (.error e, w) := by
  change StateT.run (ExceptT.run (match w.snapshots p.tag with
    | some entries => (pure entries : ExceptT ConfigError Act (KeyMap String))
    | none => do
      let entries ← p.read w.files
      set (w.setSnapshot p.tag (some entries))
      return entries)) w = _
  cases w.snapshots p.tag with
  | some entries => rfl
  | none =>
      cases p.read w.files with
      | ok entries => rfl
      | error e => rfl

theorem keeps_entries {reading : Reading} (p : FileProvider)
    (h : ∀ files assignments, reading p.tag files assignments = p.read files) :
    Keeps reading p.tag p.entries.run := by
  intro w
  have hrun := p.entries_run w
  rw [outcome, after, hrun, World.kept, h]
  cases w.snapshots p.tag with
  | some entries => exact ⟨rfl, .inl rfl⟩
  | none =>
      cases p.read w.files with
      | ok entries => exact ⟨rfl, .inr ⟨entries, rfl, rfl⟩⟩
      | error e => exact ⟨rfl, .inl rfl⟩

theorem steady {reading : Reading} (p : FileProvider)
    (h : ∀ files assignments, reading p.tag files assignments = p.read files) :
    letI := World.alike reading
    p.toProvider.Steady ∧ Steady p.toProvider.properties.run := by
  let := World.alike reading
  have hentries : Steady p.entries.run := (p.keeps_entries h).steady
  refine ⟨⟨fun key => ?_, .pure _⟩, ?_⟩
  · refine hentries.bindExcept fun entries => ?_
    cases entries.get? key with
    | none => exact .pure _
    | some value => exact steady_checked (PropertyValue.of key value p.name)
  · exact hentries.bindExcept fun entries => .pure (PropertyValue.mapOf entries.entries p.name)

end FileProvider

namespace VariableProvider

theorem entries_run (p : VariableProvider) (w : World) :
    p.entries.run w =
      match w.snapshots p.tag with
      | some entries => (entries, w)
      | none =>
        let entries := readVariables p.mapping w.assignments
        (entries, w.setSnapshot p.tag (some entries)) := by
  change StateT.run (match w.snapshots p.tag with
    | some entries => (pure entries : Act (KeyMap String))
    | none => do
      let entries := readVariables p.mapping w.assignments
      set (w.setSnapshot p.tag (some entries))
      return entries) w = _
  cases w.snapshots p.tag with
  | some entries => rfl
  | none => rfl

theorem keeps_entries {reading : Reading} (p : VariableProvider)
    (h : ∀ files assignments,
      reading p.tag files assignments = .ok (readVariables p.mapping assignments)) :
    Keeps reading p.tag (ExceptT.lift p.entries).run := by
  intro w
  have hrun : (ExceptT.lift p.entries : ExceptT ConfigError Act _).run.run w =
    (.ok (p.entries.run w).1, (p.entries.run w).2) := rfl
  rw [outcome, after, hrun, entries_run, World.kept, h]
  cases w.snapshots p.tag with
  | some entries => exact ⟨rfl, .inl rfl⟩
  | none => exact ⟨rfl, .inr ⟨_, rfl, rfl⟩⟩

theorem steady {reading : Reading} (p : VariableProvider)
    (h : ∀ files assignments,
      reading p.tag files assignments = .ok (readVariables p.mapping assignments)) :
    letI := World.alike reading
    p.toProvider.Steady ∧ Steady p.toProvider.properties.run := by
  let := World.alike reading
  have hentries : Steady (ExceptT.lift p.entries).run := (p.keeps_entries h).steady
  refine ⟨⟨fun key => ?_, .pure _⟩, ?_⟩
  · refine hentries.bindExcept fun entries => ?_
    cases entries.get? key with
    | none => exact .pure _
    | some value => exact steady_checked (PropertyValue.of key value name)
  · exact hentries.bindExcept fun entries => .pure (PropertyValue.mapOf _ name)

end VariableProvider

theorem MemoryProvider.steady (reading : Reading) (p : MemoryProvider) :
    letI := World.alike reading
    p.toProvider.Steady ∧ Steady p.toProvider.properties.run := by
  let := World.alike reading
  have hcontent : Steady p.content :=
    .of_unchanged (fun w w' h => congrFun h.2.2.1 p.tag) fun _ => rfl
  refine ⟨⟨fun key => ?_, .pure _⟩, ?_⟩
  · refine hcontent.lift.bindExcept fun content => ?_
    cases content.get? key with
    | none => exact .pure _
    | some payload => exact steady_checked (PropertyValue.create key payload p.name)
  · exact hcontent.lift.bindExcept fun content => .pure (valuesOf p.name .empty content.entries)

namespace Sample

variable {σ : Type}

theorem get_fixed (tag : Tag) (name key : String) :
    (fixed tag name : Provider (StateM σ)).get key =
      if key = "fixed.key" then do return some (← PropertyValue.of key "fixed-value" name)
      else return none := rfl

variable [Setoid σ]

theorem steady_failing (tag : Tag) (name : String) (ordinal : Int) (outage : Outage) :
    (failing tag name ordinal outage : Provider (StateM σ)).Steady ∧
      Steady (failing tag name ordinal outage : Provider (StateM σ)).properties.run :=
  ⟨⟨fun _ => .pure _, .pure _⟩, .pure _⟩

theorem steady_fixed (tag : Tag) (name : String) :
    (fixed tag name : Provider (StateM σ)).Steady ∧
      Steady (fixed tag name : Provider (StateM σ)).properties.run := by
  refine ⟨⟨fun key => ?_, .pure _⟩, .pure _⟩
  rw [get_fixed]
  split
  · exact steady_checked _
  · exact .pure _

end Sample

end LayeredConfig

import LayeredConfig.Proofs.Change.Session
import LayeredConfig.Proofs.File.Sharing
import LayeredConfig.Proofs.File.Writing
import LayeredConfig.Proofs.Flat.RoundTrip
import LayeredConfig.Proofs.Provider.Steady
import LayeredConfig.Proofs.Xml.RoundTrip

/-!
Commits to a file. A commit applies its changes to what it reads from the file at this moment, and
the file then reads as just this; a commit that fails at any step leaves what the file says as it
was.
-/

namespace LayeredConfig

theorem DocumentFormat.parse_render (format : DocumentFormat) (m : KeyMap String) :
    format.parse (format.render m) = .ok m := by
  cases format with
  | flat =>
      rw [parse, render, Format.Flat.render, Format.Flat.parse_renderEntries, KeyMap.ofList_entries]
  | xml =>
      rw [parse, render, Format.Xml.render, Format.Xml.parse_renderEntries, KeyMap.ofList_entries]

/-- The entries of a document with non-empty keys; a text that is no document has none. -/
def DocumentFormat.entriesOf (format : DocumentFormat) (text : String) : KeyMap String :=
  match format.parse text with
  | .ok entries => entries.erase ""
  | .error _ => .empty

def DocumentFormat.contentAt (format : DocumentFormat) (place : Place) (fs : FileSystem) :
    KeyMap String :=
  match fs.node? place with
  | some (.file (.text s)) => format.entriesOf s
  | _ => .empty

theorem DocumentFormat.not_contains_contentAt (format : DocumentFormat) (place : Place)
    (fs : FileSystem) : (format.contentAt place fs).get? "" = none := by
  rw [contentAt]
  split
  · rw [entriesOf]
    split
    · rw [KeyMap.get?_erase, if_pos rfl]
    · rfl
  · rfl

theorem runFiles_run {α : Type} (action : FileAction α) (w : World) :
    (runFiles action).run w =
      (outcome action.run w.files, { w with files := after action.run w.files }) := rfl

namespace FileProvider

open FileSystem

variable {ι : Type} {paths : ι → String} {place : Place} {p : FileProvider} {i : ι}
  {fs fs' : FileSystem} {w w' : World} {changes : ChangeSet}

theorem parse_eq_ok {text : String} {entries : KeyMap String} (h : p.parse text = .ok entries) :
    entries = p.format.entriesOf text := by
  rw [parse] at h
  rw [DocumentFormat.entriesOf]
  cases hparse : p.format.parse text with
  | error fault =>
      rw [hparse] at h
      cases h
  | ok m =>
      rw [hparse] at h
      cases h
      rfl

theorem read_eq_contentAt (hshared : Shared paths place fs) (hpath : p.path = paths i)
    {entries : KeyMap String} (h : p.read fs = .ok entries) :
    entries = p.format.contentAt place fs := by
  rw [read, hpath] at h
  cases hinspect : fs.inspect (paths i) with
  | error kind =>
      rw [hinspect] at h
      cases kind with
      | notFound =>
          cases h
          rw [DocumentFormat.contentAt]
          cases hnode : fs.node? place with
          | none => rfl
          | some node =>
              cases node with
              | directory => rfl
              | file content => exact absurd hnode (hshared.node?_of_inspect hinspect content)
      | _ => cases h
  | ok node =>
      rw [hinspect] at h
      dsimp only at h
      split at h
      · cases h
      · cases hread : fs.read (paths i) with
        | error kind =>
            rw [hread] at h
            cases h
        | ok text =>
            rw [hread] at h
            obtain ⟨q, hlocate, hnode⟩ := FileSystem.read_eq_ok hread
            obtain rfl : q = place := (locate_eq_ok hlocate).trans (hshared.denoted i)
            rw [DocumentFormat.contentAt, hnode]
            exact parse_eq_ok h

theorem run_persist (p : FileProvider) (changes : ChangeSet) (w : World) :
    (p.persist changes).run.run w =
      match p.read w.files with
      | .error e => (.error e, w)
      | .ok entries =>
        match (p.write (changes.applyTo entries)).run.run w.files with
        | (.error kind, files) => (.error (.inputOutput kind), { w with files })
        | (.ok _, files) =>
          (.ok (), { w with files }.setSnapshot p.tag (some (changes.applyTo entries))) := by
  have hget : (get : ExceptT ConfigError Act World).run.run w = (.ok w, w) := rfl
  rw [persist, run_bind_of_ok hget]
  cases p.read w.files with
  | error e => rfl
  | ok entries =>
      have hread : (liftM (Except.ok entries : Except ConfigError _) :
          ExceptT ConfigError Act _).run.run w = (.ok entries, w) := rfl
      rw [run_bind_of_ok hread]
      dsimp only
      cases hwrite : (p.write (changes.applyTo entries)).run.run w.files with
      | mk written files =>
          have hfiles : (runFiles (p.write (changes.applyTo entries))).run w =
              (written, { w with files }) := by
            rw [runFiles_run, outcome, after, hwrite]
          have hlifted : (liftM (runFiles (p.write (changes.applyTo entries))) :
              ExceptT ConfigError Act _).run.run w = (.ok written, { w with files }) :=
            run_lift hfiles
          rw [run_bind_of_ok hlifted]
          cases written with
          | error kind => rfl
          | ok _ => rfl

/-- Everything that the routine of a request can do: it fails at reading, it fails at writing, or it
has written what it read with the changes, and keeps it. -/
inductive Persisting (p : FileProvider) (changes : ChangeSet) (w : World) :
    Except ConfigError Unit → World → Prop
  | unread {e} : p.read w.files = .error e → Persisting p changes w (.error e) w
  | unwritten {entries kind files} : p.read w.files = .ok entries →
      p.Writing (changes.applyTo entries) w.files (.error kind) files →
      Persisting p changes w (.error (.inputOutput kind)) { w with files }
  | written {entries files} : p.read w.files = .ok entries →
      p.Writing (changes.applyTo entries) w.files (.ok ()) files →
      Persisting p changes w (.ok ())
        ({ w with files }.setSnapshot p.tag (some (changes.applyTo entries)))

theorem persisting_of_run {result : Except ConfigError Unit}
    (h : (p.persist changes).run.run w = (result, w')) : p.Persisting changes w result w' := by
  rw [run_persist] at h
  cases hread : p.read w.files with
  | error e =>
      rw [hread] at h
      cases h
      exact .unread hread
  | ok entries =>
      rw [hread] at h
      dsimp only at h
      cases hwrite : (p.write (changes.applyTo entries)).run.run w.files with
      | mk written files =>
          rw [hwrite] at h
          cases written with
          | error kind =>
              cases h
              exact .unwritten hread (writing_of_run hwrite)
          | ok _ =>
              cases h
              exact .written hread (writing_of_run hwrite)

/-- A commit that succeeds has applied its changes to the file as it stands, and one that fails has
not changed what it says. -/
theorem persist_content (hshared : Shared paths place w.files) (hpath : p.path = paths i)
    (hproper : changes.Proper) {result : Except ConfigError Unit} :
    (p.persist changes).run.run w = (result, w') →
      Shared paths place w'.files ∧ p.format.contentAt place w'.files = match result with
        | .ok _ => changes.writeTo id (p.format.contentAt place w.files)
        | .error _ => p.format.contentAt place w.files := by
  intro h
  have hplace : p.place w.files = place := by
    rw [FileProvider.place, hpath]
    exact hshared.denoted i
  cases persisting_of_run h with
  | unread _ => exact ⟨hshared, rfl⟩
  | unwritten _ hwriting =>
      have hnode := hwriting.node?_of_error
      rw [hplace] at hnode
      rcases hnode with hsame | ⟨hnone, hdir⟩
      · refine ⟨hshared.later hwriting.extends hwriting.refusal ?_, ?_⟩
        · intro content hnode
          obtain ⟨j, hj⟩ := hshared.reached content (hsame ▸ hnode) ⟨i⟩
          exact ⟨j, hwriting.extends.locate hj⟩
        · dsimp only
          rw [DocumentFormat.contentAt, hsame]
          rfl
      · refine ⟨hshared.later hwriting.extends hwriting.refusal ?_, ?_⟩
        · intro content hnode
          rw [hdir] at hnode
          cases hnode
        · dsimp only
          rw [DocumentFormat.contentAt, DocumentFormat.contentAt, hnone, hdir]
  | written hread hwriting =>
      have hlocate := hwriting.locate_of_ok
      have hnode := hwriting.node?_of_ok.1
      rw [hplace] at hlocate hnode
      refine ⟨hshared.later hwriting.extends hwriting.refusal fun _ _ => ⟨i, hpath ▸ hlocate⟩, ?_⟩
      have hempty := hproper.get?_writeTo_empty id (p.format.not_contains_contentAt place w.files)
      dsimp only [World.setSnapshot]
      rw [DocumentFormat.contentAt, hnode, ChangeSet.applyTo_eq_writeTo,
        read_eq_contentAt hshared hpath hread]
      dsimp only
      rw [DocumentFormat.entriesOf, DocumentFormat.parse_render]
      exact KeyMap.erase_eq_self hempty

end FileProvider

end LayeredConfig

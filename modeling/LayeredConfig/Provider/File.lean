import LayeredConfig.Format.Document
import LayeredConfig.World

/-!
File providers: the entries of a property document. The document is read at the first look-up and
kept until the provider is reloaded. A commit reads the file again, applies the changes, writes a
staging file and moves it into place, so the file is changed as a whole or not at all.
-/

namespace LayeredConfig

/-- A file provider. -/
structure FileProvider where
  tag : Tag
  name : String
  path : String
  ordinal : Int
  writable : Bool
  format : DocumentFormat

namespace FileProvider

def sizeLimit : Nat := 10 * 1024 * 1024

/-- The number of bytes that a node takes; a directory takes one block. -/
def nodeSize : Node → Nat
  | .directory => 4096
  | .file content => content.size

def failure (p : FileProvider) (text : String) (cause : Cause) : ConfigError :=
  .source p.name s!"{text}: {p.path}" (some cause)

/-- The entries of a document with their keys, of which none is empty. -/
def parse (p : FileProvider) (text : String) : Except ConfigError (KeyMap String) :=
  match p.format.parse text with
  | .ok entries => .ok (entries.erase "")
  | .error fault => .error (p.failure "Failed to parse property file" (.error fault.toError))

/-- Reads the file; a missing one has no entries. -/
def read (p : FileProvider) (fs : FileSystem) : Except ConfigError (KeyMap String) :=
  match fs.inspect p.path with
  | .error .notFound => .ok .empty
  | .error kind => .error (p.failure "Failed to read file metadata" (.inputOutput kind))
  | .ok node =>
    if sizeLimit < nodeSize node then
      let size := nodeSize node
      .error (.source p.name
        s!"Property file too large: {size} bytes (max {sizeLimit} bytes)" none)
    else match fs.read p.path with
      | .error kind => .error (p.failure "Failed to read property file" (.inputOutput kind))
      | .ok text => p.parse text

def stagingPath (p : FileProvider) : String := p.path ++ ".tmp"

/-- Writes the file by way of the staging file. -/
def write (p : FileProvider) (entries : KeyMap String) : FileAction Unit := do
  FileSystem.makeParents p.path
  FileSystem.write p.stagingPath (.text (p.format.render entries))
  FileSystem.rename p.stagingPath p.path

def entries (p : FileProvider) : ExceptT ConfigError Act (KeyMap String) := do
  let w ← get
  match w.snapshots p.tag with
  | some entries => return entries
  | none =>
    let entries ← p.read w.files
    set (w.setSnapshot p.tag (some entries))
    return entries

/-- Makes the provider read the file anew at the next look-up. -/
def reload (p : FileProvider) : Act Unit := modify fun w => w.setSnapshot p.tag none

/-- Applies changes to the file, and answers from the result from then on. -/
def persist (p : FileProvider) (changes : ChangeSet) : ExceptT ConfigError Act Unit := do
  let entries := changes.applyTo (← p.read (← get).files)
  match ← (runFiles (p.write entries) : Act _) with
  | .error kind => throw (.inputOutput kind)
  | .ok () => modify fun w => w.setSnapshot p.tag (some entries)

def backend (p : FileProvider) : ExceptT ConfigError Act String := do
  return (← get).files.address p.path

def openRequest (p : FileProvider) : ExceptT ConfigError Act (ChangeRequest Act) := do
  if !p.writable then throw (.argument (.readOnly p.name))
  let backend ← p.backend
  return .create (← freshTag) backend p.persist

def toProvider (p : FileProvider) : Provider Act where
  tag := p.tag
  name := p.name
  defaultOrdinal := return p.ordinal
  scannable := true
  get key := do
    match (← p.entries).get? key with
    | some value => return some (← PropertyValue.of key value p.name)
    | none => return none
  properties := do PropertyValue.mapOf (← p.entries).entries p.name
  access :=
    if p.writable then
      some { acceptsPut := fun _ => true, acceptsRemoval := fun _ => true, backend := p.backend,
             openRequest := p.openRequest }
    else none
  source := none

end FileProvider

end LayeredConfig

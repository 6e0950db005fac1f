import LayeredConfig.Provider
import LayeredConfig.World.FileSystem

/-!
The world that providers live in: files, environment variables, the contents of memory providers,
the snapshots that providers have taken, and the next free tag. Everything that a provider keeps
stands under its tag.
-/

namespace LayeredConfig

/-- The value of an environment variable: a text, or bytes that are none. -/
inductive Variable
  | text (s : String)
  | binary
  deriving DecidableEq

def Variable.ofContent : Content → Variable
  | .text s => .text s
  | .binary _ => .binary

/-- All state that outlives a look-up. -/
structure World where
  files : FileSystem
  assignments : List (String × Variable)
  memory : Tag → KeyMap (Option String)
  snapshots : Tag → Option (KeyMap String)
  nextTag : Tag

abbrev Act := StateM World

namespace World

/-- The world before anything happened, with the absolute path of the working directory. -/
def initial (home : String) : World := ⟨.empty home, [], fun _ => .empty, fun _ => none, 0⟩

def setMemory (w : World) (tag : Tag) (content : KeyMap (Option String)) : World :=
  { w with memory := fun t => if t = tag then content else w.memory t }

def setSnapshot (w : World) (tag : Tag) (snapshot : Option (KeyMap String)) : World :=
  { w with snapshots := fun t => if t = tag then snapshot else w.snapshots t }

@[simp] theorem memory_setMemory (w : World) (tag t : Tag) (content : KeyMap (Option String)) :
    (w.setMemory tag content).memory t = if t = tag then content else w.memory t := rfl

@[simp] theorem snapshots_setSnapshot (w : World) (tag t : Tag) (s : Option (KeyMap String)) :
    (w.setSnapshot tag s).snapshots t = if t = tag then s else w.snapshots t := rfl

/-- The variables after one is set; one that was set before keeps its place. -/
def assign (name : String) (value : Variable) :
    List (String × Variable) → List (String × Variable)
  | [] => [(name, value)]
  | (n, v) :: rest => if n = name then (name, value) :: rest else (n, v) :: assign name value rest

def setVariable (w : World) (name : String) (value : Variable) : World :=
  { w with assignments := assign name value w.assignments }

def unsetVariable (w : World) (name : String) : World :=
  { w with assignments := w.assignments.filter (·.1 ≠ name) }

end World

def freshTag : Act Tag := do
  let w ← get
  set { w with nextTag := w.nextTag + 1 }
  return w.nextTag

def runFiles {α : Type} (action : FileAction α) : Act (Except IoKind α) := do
  let w ← get
  let (result, files) := action.run.run w.files
  set { w with files }
  return result

end LayeredConfig

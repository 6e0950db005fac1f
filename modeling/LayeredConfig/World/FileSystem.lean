import LayeredConfig.Error
import LayeredConfig.KeyMap
import LayeredConfig.Net.Percent
import LayeredConfig.Text.Search

/-!
A tree of files below a working directory, which may refuse single operations. A path is a text;
the place that it denotes is the list of the names on the way from the working directory. There are
no links, so a file has one place.
-/

namespace LayeredConfig

/-- What a file holds: a text, or bytes that are none. -/
inductive Content
  | text (s : String)
  | binary (size : Nat)
  deriving DecidableEq

def Content.size : Content → Nat
  | .text s => s.utf8ByteSize
  | .binary n => n

def bytesOfHex? : List Char → Option (List UInt8)
  | [] => some []
  | a :: b :: rest => do
    let high ← Net.hexValue? a
    let low ← Net.hexValue? b
    return UInt8.ofNat (16 * high + low) :: (← bytesOfHex? rest)
  | [_] => none

def Content.ofBytes (bytes : List UInt8) : Content :=
  match String.fromUTF8? ⟨bytes.toArray⟩ with
  | some s => .text s
  | none => .binary bytes.length

/-- What stands at a place. -/
inductive Node
  | directory
  | file (content : Content)
  deriving DecidableEq

/-- The operations on files that can be refused. -/
inductive FileStep
  | inspect | read | makeDirectory | write | rename
  deriving DecidableEq, Repr

abbrev Place := List String

/-- The nodes of a tree by the text of their place, and the refusals, for lack of permission or of
room. A refused write may leave a part of the content as its `remnant`. The working directory itself
is always there. -/
structure FileSystem where
  home : String
  nodes : KeyMap Node
  refusal : FileStep → Place → Option IoKind
  remnant : Place → Option Content

/-- An operation on files. What it did before it failed stays done. -/
abbrev FileAction := ExceptT IoKind (StateM FileSystem)

namespace FileSystem

def empty (home : String) : FileSystem := ⟨home, .empty, fun _ _ => none, fun _ => none⟩

def placeText (place : Place) : String := "/".intercalate place

def node? (fs : FileSystem) (place : Place) : Option Node :=
  if place = [] then some .directory else fs.nodes.get? (placeText place)

def setNode (fs : FileSystem) (place : Place) (node : Node) : FileSystem :=
  { fs with nodes := fs.nodes.insert (placeText place) node }

def eraseNode (fs : FileSystem) (place : Place) : FileSystem :=
  { fs with nodes := fs.nodes.erase (placeText place) }

def belowHome? (fs : FileSystem) (path : String) : Option (List Char) :=
  match Text.dropPrefix? fs.home.toList path.toList with
  | some [] => some []
  | some ('/' :: rest) => some rest
  | _ => none

/-- The names between the slashes of a path; an empty one stands for the directory reached. -/
def steps (path : List Char) : List String :=
  (Text.splitBy (· = '/') path).map fun name => if name = [] then "." else String.ofList name

def stepsOf (fs : FileSystem) (path : String) : List String :=
  steps ((fs.belowHome? path).getD path.toList)

def requireDirectory (fs : FileSystem) (place : Place) : Except IoKind Unit :=
  match fs.node? place with
  | some .directory => .ok ()
  | some (.file _) => .error .notDirectory
  | none => .error .notFound

def step (here : Place) (name : String) : Place :=
  if name = "." then here else if name = ".." then here.dropLast else here ++ [name]

/-- Walks along a path; all that is passed has to be a directory. -/
def walk (fs : FileSystem) (here : Place) : List String → Except IoKind Place
  | [] => .ok here
  | name :: rest => do
    fs.requireDirectory here
    walk fs (step here name) rest

def locate (fs : FileSystem) (path : String) : Except IoKind Place :=
  if path = "" then .error .notFound else fs.walk [] (fs.stepsOf path)

def permit (fs : FileSystem) (op : FileStep) (place : Place) : Except IoKind Unit :=
  match fs.refusal op place with
  | some kind => .error kind
  | none => .ok ()

def inspect (fs : FileSystem) (path : String) : Except IoKind Node := do
  let place ← fs.locate path
  fs.permit .inspect place
  match fs.node? place with
  | some node => .ok node
  | none => .error .notFound

def read (fs : FileSystem) (path : String) : Except IoKind String := do
  let place ← fs.locate path
  fs.permit .read place
  match fs.node? place with
  | some (.file (.text s)) => .ok s
  | some (.file (.binary _)) => .error .invalidData
  | some .directory => .error .isDirectory
  | none => .error .notFound

def makeDirectories (here : Place) : List String → FileAction Unit
  | [] => return ()
  | name :: rest => do
    let here := step here name
    let fs ← get
    match fs.node? here with
    | some .directory => makeDirectories here rest
    | some (.file _) => throw .notDirectory
    | none =>
      fs.permit .makeDirectory here
      set (fs.setNode here .directory)
      makeDirectories here rest

/-- Makes a directory with all that is missing on the way to it. -/
def makeDirectory (path : String) : FileAction Unit := do
  makeDirectories [] ((← get).stepsOf path)

def parentSteps (steps : List String) : List String :=
  ((steps.reverse.dropWhile (· = ".")).drop 1).reverse

/-- Makes the missing directories on the way to what a path denotes. -/
def makeParents (path : String) : FileAction Unit := do
  makeDirectories [] (parentSteps ((← get).stepsOf path))

def leaveRemnant (fs : FileSystem) (place : Place) : FileSystem :=
  match fs.remnant place with
  | some part => fs.setNode place (.file part)
  | none => fs

def write (path : String) (content : Content) : FileAction Unit := do
  let fs ← get
  let place ← fs.locate path
  if fs.node? place = some .directory then throw .isDirectory
  match fs.refusal .write place with
  | some kind =>
    set (fs.leaveRemnant place)
    throw kind
  | none => set (fs.setNode place (.file content))

/-- Moves a file to a place, where it replaces a file. -/
def rename (source target : String) : FileAction Unit := do
  let fs ← get
  let old ← fs.locate source
  let new ← fs.locate target
  match fs.node? old with
  | none => throw .notFound
  | some node =>
    if fs.node? new = some .directory then throw .isDirectory
    fs.permit .rename new
    set ((fs.eraseNode old).setNode new node)

def remove (path : String) : FileAction Unit := do
  let fs ← get
  let place ← fs.locate path
  let lead := (placeText place ++ "/").toList
  set (fs.eraseNode place)
  modify fun fs => { fs with nodes := fs.nodes.filter fun key _ => !lead.isPrefixOf key.toList }

def names (fs : FileSystem) : List String := fs.nodes.keys.filter (!·.toList.contains '/')

/-- The address of a file. The absolute path of the working directory stands as it is. -/
def address (fs : FileSystem) (path : String) : String :=
  let names := (fs.stepsOf path).filter (· ≠ ".")
  let encode (name : String) := String.ofList (Net.percentEncode Net.fileNameSet name.toList)
  "/".intercalate (("file://" ++ fs.home) :: names.map encode)

end FileSystem

end LayeredConfig

import LayeredConfig.Text.Search

/-!
Descriptions of the types that values are converted to: a qualified type name and how the value
is wanted, as it is, optionally, or behind a handle that looks it up later.
-/

namespace LayeredConfig

/-- How a value is wanted. -/
inductive Wrapping
  | plain | optional | deferred
  deriving DecidableEq, Repr

/-- A conversion target. -/
structure Descriptor where
  typeName : String
  wrapping : Wrapping
  deriving DecidableEq, Repr

namespace Descriptor

def plain (typeName : String) : Descriptor := ⟨typeName, .plain⟩

def optional (typeName : String) : Descriptor := ⟨typeName, .optional⟩

def deferred (typeName : String) : Descriptor := ⟨typeName, .deferred⟩

/-- The type arguments: a wrapped target has its type as the only one. -/
def args (d : Descriptor) : List Descriptor :=
  match d.wrapping with
  | .plain => []
  | .optional | .deferred => [plain d.typeName]

def effective (d : Descriptor) : Descriptor := plain d.typeName

@[simp] theorem effective_effective (d : Descriptor) : d.effective.effective = d.effective := rfl

/-- The characters that stand between the paths of a type name. -/
def isNameBreak (c : Char) : Bool :=
  ['<', '>', ',', ' ', '(', ')', '[', ']', ';', '&'].contains c

def lastSegment (path : List Char) : List Char :=
  match Text.splitLast? [':', ':'] path with
  | some (_, after) => after
  | none => path

/-- Shortens every path of a type name to its last segment; `path` holds the characters of the
current path in reverse. -/
def shorten (path : List Char) : List Char → List Char
  | [] => lastSegment path.reverse
  | c :: cs =>
    if isNameBreak c then lastSegment path.reverse ++ c :: shorten [] cs
    else shorten (c :: path) cs

def simpleName (d : Descriptor) : String := String.ofList (shorten [] d.typeName.toList)

def display (d : Descriptor) : String :=
  match d.wrapping with
  | .plain => d.simpleName
  | .optional => s!"Option<{d.simpleName}>"
  | .deferred => s!"Provider<{d.simpleName}>"

def describes (d : Descriptor) (typeName : String) : Bool := d.typeName = typeName

def isText (d : Descriptor) : Bool := d.describes "String"

end Descriptor

end LayeredConfig

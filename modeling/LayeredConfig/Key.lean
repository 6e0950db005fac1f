import LayeredConfig.KeyMap
import LayeredConfig.Text.Search

/-!
Keys are dot-separated paths. A section is what stands before a dot of a key:
`server.http.port` lies in the section `server.http`, which lies in `server`.
-/

namespace LayeredConfig.Key

/-- The text that the keys of a section start with: the section and a dot. The empty section, and
one that ends in a dot, stand as they are. -/
def sectionPrefix (s : List Char) : List Char :=
  if s = [] ∨ s.getLast? = some '.' then s else s ++ ['.']

def inSection (key sect : String) : Bool :=
  (sectionPrefix sect.toList).isPrefixOf key.toList

def inSections (key : String) (sections : List String) : Bool := sections.any (inSection key ·)

/-- What stands before each dot, shortest first. -/
def beforeDots : List Char → List (List Char)
  | [] => []
  | c :: cs =>
    let deeper := (beforeDots cs).map (c :: ·)
    if c = '.' then [] :: deeper else deeper

/-- The section that directly encloses a key: what stands before its last dot, unless empty. -/
def parentSection (key : String) : Option String :=
  (((Text.splitLast? ['.'] key.toList).map (·.1)).filter (· ≠ [])).map String.ofList

/-- All sections that enclose a key, outermost first. -/
def enclosingSections (key : String) : List String :=
  ((beforeDots key.toList).filter (· ≠ [])).map String.ofList

def directSections (keys : List String) : KeyMap Unit :=
  .ofList ((keys.filterMap parentSection).map (·, ()))

def transitiveSections (keys : List String) : KeyMap Unit :=
  .ofList ((keys.flatMap enclosingSections).map (·, ()))

end LayeredConfig.Key

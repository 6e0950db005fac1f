import LayeredConfig.Change.Policy
import LayeredConfig.Text.Lowercase
import LayeredConfig.Text.Search

/-!
Sample tests, renamings and routes: what to try the selection of entries, the renaming of keys, and
custom policies with.
-/

namespace LayeredConfig.Sample

/-- A test of entries. -/
inductive Test
  | valueContains | valueIs | keyContains
  deriving DecidableEq, Repr

def Test.passes (part key value : String) : Test → Bool
  | valueContains => Text.containsText part.toList value.toList
  | valueIs => value = part
  | keyContains => Text.containsText part.toList key.toList

/-- A renaming of keys. -/
inductive Renaming
  | strip | replace | upper | const
  deriving DecidableEq, Repr

/-- Replaces every occurrence of a pattern. The empty pattern occurs around every character. -/
def replaceAll (pattern replacement s : String) : String :=
  if pattern = "" then replacement ++ String.join (s.toList.map (·.toString ++ replacement))
  else s.replace pattern replacement

def Renaming.apply (old new key : String) : Renaming → Option String
  | strip => (Text.dropPrefix? old.toList key.toList).map fun rest => new ++ String.ofList rest
  | replace => some (replaceAll old new key)
  | upper => some (key.map Text.asciiUpper)
  | const => some new

/-- A target that takes values and removals for the keys with some beginning each, if any. -/
def targetOf (name : String) (puts removals : Option String) : Target where
  name := name
  accepts
    | .put key _ => puts.any fun lead => (Text.dropPrefix? lead.toList key.toList).isSome
    | .remove key => removals.any fun lead => (Text.dropPrefix? lead.toList key.toList).isSome

def routeNamed (name : String) (_ : Mutation) (targets : List Target) : List Nat :=
  Policy.indices targets (·.name = name)

def routeLast (change : Mutation) (targets : List Target) : List Nat :=
  (Policy.indices targets (·.accepts change)).getLast?.toList

/-- Routes values to some places and removals to others. -/
def routeFixed (puts removals : List Nat) (change : Mutation) (_ : List Target) : List Nat :=
  match change with
  | .put .. => puts
  | .remove _ => removals

end LayeredConfig.Sample

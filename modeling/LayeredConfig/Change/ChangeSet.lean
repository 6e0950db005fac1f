import LayeredConfig.KeyMap
import LayeredConfig.Text.Quoted

/-!
Staged changes: values to put and keys to remove. Of two changes of one key the later one counts,
so a key is never both put and removed.
-/

namespace LayeredConfig

/-- A change of one key. -/
inductive Mutation
  | put (key value : String)
  | remove (key : String)
  deriving DecidableEq, Repr

def Mutation.key : Mutation → String
  | .put key _ => key
  | .remove key => key

def Mutation.applyTo (target : KeyMap String) : Mutation → KeyMap String
  | .put key value => target.insert key value
  | .remove key => target.erase key

/-- Staged changes. -/
structure ChangeSet where
  puts : KeyMap String
  removals : KeyMap Unit
  deriving DecidableEq

namespace ChangeSet

def empty : ChangeSet := ⟨.empty, .empty⟩

def isEmpty (c : ChangeSet) : Bool := c.puts.isEmpty && c.removals.isEmpty

def put (c : ChangeSet) (key value : String) : ChangeSet :=
  ⟨c.puts.insert key value, c.removals.erase key⟩

def remove (c : ChangeSet) (key : String) : ChangeSet :=
  ⟨c.puts.erase key, c.removals.insert key ()⟩

def stage (c : ChangeSet) : Mutation → ChangeSet
  | .put key value => c.put key value
  | .remove key => c.remove key

def putAll (c : ChangeSet) (entries : List (String × String)) : ChangeSet :=
  entries.foldl (fun c e => c.put e.1 e.2) c

def removeAll (c : ChangeSet) (keys : List String) : ChangeSet := keys.foldl remove c

def applyTo (c : ChangeSet) (target : KeyMap String) : KeyMap String :=
  (c.removals.keys.foldl KeyMap.erase target).insertAll c.puts.entries

def describe (c : ChangeSet) : String :=
  let puts := c.puts.entries.map fun e => Text.quoted e.1 ++ ": " ++ Text.quoted e.2
  Text.describeRecord "ChangeSet"
    [("properties", Text.braced puts), ("removed", Text.braced (c.removals.keys.map Text.quoted))]

end ChangeSet

end LayeredConfig

import LayeredConfig.Text.Lowercase
import LayeredConfig.World

/-!
The provider of environment variables. It takes a snapshot of all variables at the first look-up and
answers from it until it is told to take another one.
-/

namespace LayeredConfig

/-- How names of variables become keys: a lead that is dropped, and which selects the variables,
then small letters, then dots for underscores. -/
structure KeyMapping where
  lead : Option String
  lowercase : Bool
  dots : Bool

namespace KeyMapping

/-- What remains of a name after the lead, unless nothing does. -/
def dropLead (lead name : String) : Option String :=
  match Text.dropPrefix? lead.toList name.toList with
  | some (c :: cs) => some (String.ofList (c :: cs))
  | _ => none

def keyFor (k : KeyMapping) (name : String) : Option String := do
  let name ← match k.lead with
    | some lead => dropLead lead name
    | none => some name
  let key := if k.lowercase then Text.lowercase name else name
  return if k.dots then key.map fun c => if c = '_' then '.' else c else key

end KeyMapping

/-- The provider of environment variables. -/
structure VariableProvider where
  tag : Tag
  mapping : KeyMapping

namespace VariableProvider

def name : String := "environment-properties"

def ordinal : Int := 300

def nameLimit : Nat := 512

def valueLimit : Nat := 1024 * 1024

/-- The mapping of a provider that is made without further wishes. -/
def defaultMapping : KeyMapping := ⟨none, false, true⟩

def fixedMapping : KeyMapping := ⟨none, false, false⟩

def entryOf (mapping : KeyMapping) : String × Variable → Option (String × String)
  | (name, .text value) =>
    if name.utf8ByteSize ≤ nameLimit && value.utf8ByteSize ≤ valueLimit then
      (mapping.keyFor name).map (·, value)
    else none
  | (_, .binary) => none

/-- The entries of all variables; of two with one key the later one counts. -/
def readVariables (mapping : KeyMapping) (assignments : List (String × Variable)) : KeyMap String :=
  .ofList (assignments.filterMap (entryOf mapping))

def entries (p : VariableProvider) : Act (KeyMap String) := do
  let w ← get
  match w.snapshots p.tag with
  | some entries => return entries
  | none =>
    let entries := readVariables p.mapping w.assignments
    set (w.setSnapshot p.tag (some entries))
    return entries

/-- Makes the provider answer from given entries until it is reloaded. -/
def fix (p : VariableProvider) (entries : KeyMap String) : Act Unit :=
  modify fun w => w.setSnapshot p.tag (some entries)

/-- Makes the provider read the variables anew at the next look-up. -/
def reload (p : VariableProvider) : Act Unit := modify fun w => w.setSnapshot p.tag none

def toProvider (p : VariableProvider) : Provider Act where
  tag := p.tag
  name := name
  defaultOrdinal := return ordinal
  scannable := true
  get key := do
    match (← (p.entries : Act _)).get? key with
    | some value => return some (← PropertyValue.of key value name)
    | none => return none
  properties := do
    PropertyValue.mapOf ((← (p.entries : Act _)).entries.filter (·.1 ≠ "")) name
  access := none
  source := none

end VariableProvider

end LayeredConfig

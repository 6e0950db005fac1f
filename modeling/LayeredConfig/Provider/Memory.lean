import LayeredConfig.Net.Url
import LayeredConfig.World

/-!
Memory providers: entries in memory, in which a payload may be absent. What a provider holds can be
changed at any time, directly or through change requests.
-/

namespace LayeredConfig

/-- A memory provider. A pattern may restrict the keys that change requests touch. -/
structure MemoryProvider where
  tag : Tag
  name : String
  ordinal : Int
  scannable : Bool
  writable : Bool
  writableKeys : Option WholePattern

namespace MemoryProvider

def keyPattern (expression : String) (engine : Pattern.Engine := .standard) :
    Except ConfigError WholePattern :=
  match WholePattern.compile? engine expression with
  | some pattern => .ok pattern
  | none => .error (.argument (.keyPattern expression))

def content (p : MemoryProvider) : Act (KeyMap (Option String)) := do return (← get).memory p.tag

def set (p : MemoryProvider) (key : String) (payload : Option String) : Act Unit :=
  modify fun w => w.setMemory p.tag ((w.memory p.tag).insert key payload)

def make (p : MemoryProvider) (entries : List (String × Option String)) : Act MemoryProvider := do
  let p := { p with tag := ← freshTag }
  entries.forM fun e => p.set e.1 e.2
  return p

def unset (p : MemoryProvider) (key : String) : Act Unit :=
  modify fun w => w.setMemory p.tag ((w.memory p.tag).erase key)

def snapshot (p : MemoryProvider) : Act (KeyMap String) := do return (← p.content).present

def accepts (p : MemoryProvider) (key : String) : Bool :=
  p.writable && p.writableKeys.all (·.accepts key)

def valuesOf (name : String) (acc : KeyMap PropertyValue) :
    List (String × Option String) → Except ConfigError (KeyMap PropertyValue)
  | [] => .ok acc
  | (key, payload) :: rest => do
    valuesOf name (acc.insert key (← PropertyValue.create key payload name)) rest

def backend (p : MemoryProvider) : Except ConfigError String :=
  match Url.parse ("memory:" ++ p.name).toList with
  | .ok u => .ok u.toText
  | .error fault => .error (.argument (.noBackend p.name fault))

/-- Applies changes: removals first, then values. -/
def apply (changes : ChangeSet) (content : KeyMap (Option String)) : KeyMap (Option String) :=
  (changes.removals.keys.foldl KeyMap.erase content).insertAll
    (changes.puts.entries.map fun e => (e.1, some e.2))

def persist (p : MemoryProvider) (changes : ChangeSet) : ExceptT ConfigError Act Unit :=
  modify fun w => w.setMemory p.tag (apply changes (w.memory p.tag))

def openRequest (p : MemoryProvider) : ExceptT ConfigError Act (ChangeRequest Act) := do
  if !p.writable then throw (.argument (.readOnly p.name))
  let backend ← p.backend
  return .create (← freshTag) backend p.persist

def toProvider (p : MemoryProvider) : Provider Act where
  tag := p.tag
  name := p.name
  defaultOrdinal := return p.ordinal
  scannable := p.scannable
  get key := do
    match (← p.content).get? key with
    | some payload => return some (← PropertyValue.create key payload p.name)
    | none => return none
  properties := do valuesOf p.name .empty (← p.content).entries
  access :=
    if p.writable then
      some { acceptsPut := p.accepts, acceptsRemoval := p.accepts, backend := p.backend,
             openRequest := p.openRequest }
    else none
  source := none

end MemoryProvider

end LayeredConfig

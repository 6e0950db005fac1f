import LayeredConfig.Bridge.Provider
import LayeredConfig.Configuration

/-!
Configurations across the bridge. The native view of a host configuration asks the host for every
text and leaves typed look-ups to it.
-/

namespace LayeredConfig

namespace HostConfig

variable {m : Type → Type} [Monad m]

def take (typeName key : String) (v : Converted m) : Except ConfigError Value :=
  if v.asValue.typeName = typeName then .ok v.asValue
  else .error (.argument (.foreignHostValue key (Descriptor.plain typeName).display))

def getValue (h : HostConfig m) (typeName key : String) : ExceptT ConfigError m Value := do
  match ← h.typedValue key (.plain typeName) with
  | some v => take typeName key v
  | none => throw (.keyNotFound key)

def getOptional (h : HostConfig m) (typeName key : String) :
    ExceptT ConfigError m (Option Value) := do
  match ← h.typedValue key (.optional typeName) with
  | some v => return some (← take typeName key v)
  | none => return none

end HostConfig

namespace Bridge

variable {m : Type → Type} [Monad m]

/-- A host configuration that stands for a configuration. It has no word for failures of plain
look-ups: what fails is missing. -/
def wrapConfiguration (tag : Tag) (c : Configuration m) : HostConfig m where
  tag := tag
  value key := do
    match ← (c.get key).run with
    | .ok v => return v
    | .error _ => return none
  typedValue key target := c.convertAny key target none
  propertyNames := do
    match ← c.getProperties.run with
    | .ok shown => return shown.keys
    | .error _ => return []
  sources := return toHostSources c.context.providers
  native := some c

def hostSourceName : String := "host"

/-- The source that supplies a key: of those that hold it one with the highest ordinal, and the
last one of several such. `best` is the best one so far. -/
def supplier (key : String) (best : Option (Int × String)) :
    List (HostSource m) → m (Option (Int × String))
  | [] => return best
  | s :: rest => do
    match ← s.value key with
    | none => supplier key best rest
    | some _ =>
      let n ← s.ordinal
      match best with
      | some (top, name) => supplier key (some (if top ≤ n then (n, s.name) else (top, name))) rest
      | none => supplier key (some (n, s.name)) rest

def sourceOf (key : String) (sources : List (HostSource m)) : m String := do
  return ((← supplier key none sources).map (·.2)).getD hostSourceName

def hostEntries (h : HostConfig m) (sources : List (HostSource m)) (acc : KeyMap PropertyValue) :
    List String → ExceptT ConfigError m (KeyMap PropertyValue)
  | [] => return acc
  | name :: rest => do
    match ← (h.value name : m (Option String)) with
    | some text =>
      let v ← PropertyValue.of name text (← (sourceOf name sources : m String))
      hostEntries h sources (acc.insert name v) rest
    | none => hostEntries h sources acc rest

def hostView (tag : Tag) (h : HostConfig m) : View m where
  tag := tag
  get key := do
    match ← (h.value key : m (Option String)) with
    | some text =>
      let sources ← (h.sources : m (List (HostSource m)))
      return some (← PropertyValue.of key text (← (sourceOf key sources : m String)))
    | none => return none
  properties := do
    let sources ← (h.sources : m (List (HostSource m)))
    let names ← (h.propertyNames : m (List String))
    hostEntries h sources .empty names
  kind := .host h

def toHostConfig (tag : Tag) (c : Configuration m) : HostConfig m :=
  match c.view.host? with
  | some h => h
  | none => wrapConfiguration tag c

/-- Takes a configuration over from the host. Its sources become the providers of the context. -/
def toNativeConfig (tag : Tag) (h : HostConfig m) : ExceptT ConfigError m (Configuration m) := do
  match h.native with
  | some c => return c
  | none =>
    let sources ← (h.sources : m (List (HostSource m)))
    let context ← Context.build tag (toNativeProviders sources) [] []
    return ⟨context, hostView tag h⟩

end Bridge

end LayeredConfig

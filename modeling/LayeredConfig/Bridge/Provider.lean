import LayeredConfig.Provider

/-!
Providers and host sources across the bridge. One that stands for one of the other side is
unwrapped, any other one is wrapped, so turning a provider over and back gives the provider itself.
-/

namespace LayeredConfig.Bridge

variable {m : Type → Type} [Monad m]

/-- A host source that stands for a provider. It has no word for failures: what fails is missing. -/
def wrapProvider (tag : Tag) (p : Provider m) : HostSource m where
  tag := tag
  name := p.name
  ordinal := p.ordinal
  properties := do
    match ← p.properties.run with
    | .ok values => return values.payloads
    | .error _ => return .empty
  value key := do
    match ← (p.get key).run with
    | .ok v => return v.bind (·.value)
    | .error _ => return none
  provider := some p

/-- A provider that stands for a host source. It takes no changes. -/
def wrapSource (tag : Tag) (s : HostSource m) : Provider m where
  tag := tag
  name := s.name
  defaultOrdinal := s.ordinal
  scannable := true
  get key := do
    match ← (s.value key : m (Option String)) with
    | some text => return some (← PropertyValue.of key text s.name)
    | none => return none
  properties := do
    let texts ← (s.properties : m (KeyMap String))
    PropertyValue.mapOf texts.entries s.name
  access := none
  source := some s

def toHostSource (tag : Tag) (p : Provider m) : HostSource m :=
  match p.source with
  | some s => s
  | none => wrapProvider tag p

def toNativeProvider (tag : Tag) (s : HostSource m) : Provider m :=
  match s.provider with
  | some p => p
  | none => wrapSource tag s

/-- Turns providers over in passing: a wrapper is told apart as what it wraps. -/
def toHostSources (providers : List (Provider m)) : List (HostSource m) :=
  providers.map fun p => toHostSource p.tag p

/-- Takes sources over in passing: a wrapper is told apart as what it wraps. -/
def toNativeProviders (sources : List (HostSource m)) : List (Provider m) :=
  sources.map fun s => toNativeProvider s.tag s

end LayeredConfig.Bridge

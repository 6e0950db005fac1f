import LayeredConfig.Change.Policy
import LayeredConfig.PropertyValue
import LayeredConfig.Text.Blank
import LayeredConfig.Value

/-!
Providers: named sources of property values, ranked by an ordinal. A provider with a higher ordinal
takes precedence. Beside them stand the sources of a host framework, which know texts alone.
-/

namespace LayeredConfig

/-- The key under which a provider may declare its ordinal. -/
def ordinalKey : String := "tamaya.ordinal"

/-- The side of a provider that takes changes. -/
structure WriteAccess (m : Type → Type) where
  acceptsPut : String → Bool
  acceptsRemoval : String → Bool
  backend : ExceptT ConfigError m String
  openRequest : ExceptT ConfigError m (ChangeRequest m)

/-- Values and removals are accepted by their key alone. -/
def WriteAccess.accepts {m : Type → Type} (a : WriteAccess m) : Mutation → Bool
  | .put key _ => a.acceptsPut key
  | .remove key => a.acceptsRemoval key

mutual

/-- A source of property values. `source` is the host's source that it stands for, if any. -/
structure Provider (m : Type → Type) where
  tag : Tag
  name : String
  defaultOrdinal : m Int
  scannable : Bool
  get : String → ExceptT ConfigError m (Option PropertyValue)
  properties : ExceptT ConfigError m (KeyMap PropertyValue)
  access : Option (WriteAccess m)
  source : Option (HostSource m)

/-- A source of the host framework. `provider` is the provider that it stands for, if any. -/
structure HostSource (m : Type → Type) where
  tag : Tag
  name : String
  ordinal : m Int
  properties : m (KeyMap String)
  value : String → m (Option String)
  provider : Option (Provider m)

end

namespace Provider

variable {m : Type → Type}

def declaredOrdinal? (text : String) : Option Int :=
  (Literal.readInteger 10 IntegerKind.i32.lo IntegerKind.i32.hi (Text.trim text.toList)).toOption

/-- The effective ordinal: the one that the provider declares under `ordinalKey`, else its default
one. -/
def ordinal [Monad m] (p : Provider m) : m Int := do
  match ← (p.get ordinalKey).run with
  | .ok (some v) =>
    match v.value.bind declaredOrdinal? with
    | some n => pure n
    | none => p.defaultOrdinal
  | _ => p.defaultOrdinal

def isWritable (p : Provider m) : Bool := p.access.isSome

def target (p : Provider m) : Target where
  name := p.name
  accepts change := p.access.any (·.accepts change)

def holds [Monad m] (p : Provider m) (key : String) : m Bool := do
  match ← (p.get key).run with
  | .ok (some _) => pure true
  | _ => pure false

end Provider

end LayeredConfig

import LayeredConfig.Configuration

/-!
Environments say what configurations are built from by default; builders collect the parts of a
context, with an environment at hand for those who ask for defaults.
-/

namespace LayeredConfig

/-- What there is by default. Default providers are made anew each time they are asked for. -/
structure Environment (m : Type → Type) where
  name : String
  defaultProviders : List (m (Provider m))
  discoveredProviders : List (Provider m)
  defaultConverters : List (Converter m)
  defaultFilters : List (Filter m)

namespace Environment

variable {m : Type → Type}

def empty (name : String) : Environment m := ⟨name, [], [], [], []⟩

def withDefaultProvider (e : Environment m) (make : m (Provider m)) : Environment m :=
  { e with defaultProviders := e.defaultProviders ++ [make] }

def withDiscoveredProvider (e : Environment m) (p : Provider m) : Environment m :=
  { e with discoveredProviders := e.discoveredProviders ++ [p] }

def withDefaultConverter (e : Environment m) (c : Converter m) : Environment m :=
  { e with defaultConverters := e.defaultConverters ++ [c] }

def withDefaultFilter (e : Environment m) (f : Filter m) : Environment m :=
  { e with defaultFilters := e.defaultFilters ++ [f] }

def makeProviders [Monad m] (e : Environment m) : m (List (Provider m)) :=
  e.defaultProviders.mapM id

def describe (e : Environment m) : String :=
  Text.describeRecord "Environment"
    [("name", Text.quoted e.name),
      ("default_providers", toString e.defaultProviders.length),
      ("discovered_providers",
        Text.describeList (e.discoveredProviders.map fun p => Text.quoted p.name)),
      ("default_converters", toString e.defaultConverters.length),
      ("default_filters", toString e.defaultFilters.length)]

end Environment

/-- The parts of a context that is being built. -/
structure Builder (m : Type → Type) where
  providers : List (Provider m)
  filters : List (Filter m)
  converters : List (Converter m)
  environment : Environment m

namespace Builder

variable {m : Type → Type}

def start (environment : Environment m) : Builder m := ⟨[], [], [], environment⟩

def addProviders (b : Builder m) (providers : List (Provider m)) : Builder m :=
  { b with providers := b.providers ++ providers }

/-- Drops the providers added so far that have one of some names. -/
def removeProviders (b : Builder m) (names : List String) : Builder m :=
  { b with providers := b.providers.filter fun p => !names.contains p.name }

def addFilters (b : Builder m) (filters : List (Filter m)) : Builder m :=
  { b with filters := b.filters ++ filters }

def addConverters (b : Builder m) (converters : List (Converter m)) : Builder m :=
  { b with converters := b.converters ++ converters }

/-- Replaces the environment; what it offered before and was added stays. -/
def withEnvironment (b : Builder m) (environment : Environment m) : Builder m :=
  { b with environment }

def addDiscoveredProviders (b : Builder m) : Builder m :=
  b.addProviders b.environment.discoveredProviders

def addDefaultConverters (b : Builder m) : Builder m :=
  b.addConverters b.environment.defaultConverters

def addDefaultFilters (b : Builder m) : Builder m := b.addFilters b.environment.defaultFilters

variable [Monad m]

def addDefaultProviders (b : Builder m) : m (Builder m) := do
  return b.addProviders (← b.environment.makeProviders)

def buildContext (b : Builder m) (tag : Tag) : ExceptT ConfigError m (Context m) :=
  Context.build tag b.providers b.filters b.converters

/-- Builds a configuration that shows the context as it is. -/
def build (b : Builder m) (tag : Tag) : ExceptT ConfigError m (Configuration m) := do
  return .ofContext tag (← b.buildContext tag)

end Builder

def Context.toBuilder {m : Type → Type} (c : Context m) (environment : Environment m) : Builder m :=
  ⟨c.providers, c.filters, c.converters.toList, environment⟩

/-- The configuration of everything that an environment offers. -/
def Environment.buildConfiguration {m : Type → Type} [Monad m] (e : Environment m) (tag : Tag) :
    ExceptT ConfigError m (Configuration m) := do
  let b ← (Builder.start e).addDefaultProviders
  b.addDiscoveredProviders.addDefaultConverters.addDefaultFilters.build tag

end LayeredConfig

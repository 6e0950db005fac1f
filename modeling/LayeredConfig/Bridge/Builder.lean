import LayeredConfig.Bridge.Configuration
import LayeredConfig.Bridge.Converter
import LayeredConfig.Environment

/-!
Builders across the bridge. Either side's builder can be driven through the contract of the other
side, call by call. What a host builder cannot do is noted, and makes the build fail.
-/

namespace LayeredConfig

/-- A call on a builder of the library. -/
inductive NativeCall (m : Type → Type)
  | addProviders (providers : List (Provider m))
  | removeProviders (names : List String)
  | addFilters (filters : List (Filter m))
  | addConverter (converter : Converter m)
  | addDefaultProviders
  | addDiscoveredProviders
  | addDefaultConverters
  | withEnvironment (environment : Environment m)

/-- A call on a builder of the host framework. -/
inductive HostCall (m : Type → Type)
  | withSources (sources : List (HostSource m))
  | withConverter (converter : HostConverter m)
  | addDefaultSources
  | addDiscoveredSources
  | addDiscoveredConverters
  | forEnvironment (environment : Environment m)

/-- A builder that belongs to the host framework. What it builds hangs on the calls that it has
received, in their order. -/
structure ForeignBuilder (m : Type → Type) where
  received : List (HostCall m)
  build : List (HostCall m) → Tag → ExceptT ConfigError m (HostConfig m)

mutual

/-- A builder behind the contract of the library: the library's own, or one that drives a host
builder and notes the names of the calls without a peer. `handedOut` has given its host builder
away. -/
inductive NativeBuilder (m : Type → Type)
  | own (builder : Builder m)
  | overHost (builder : HostBuilder m) (rejected : List String)
  | handedOut (rejected : List String)

/-- A builder behind the contract of the host: the host's own, or one that drives a builder of the
library. `handedOut` has given it away. -/
inductive HostBuilder (m : Type → Type)
  | foreign (builder : ForeignBuilder m)
  | overNative (builder : NativeBuilder m)
  | handedOut

end

variable {m : Type → Type} [Monad m]

def HostCall.peer : HostCall m → NativeCall m
  | withSources sources => .addProviders (Bridge.toNativeProviders sources)
  | withConverter converter => .addConverter (Bridge.toNativeConverter converter.tag converter)
  | addDefaultSources => .addDefaultProviders
  | addDiscoveredSources => .addDiscoveredProviders
  | addDiscoveredConverters => .addDefaultConverters
  | forEnvironment environment => .withEnvironment environment

/-- The host call that a call amounts to, or the name of a call that the host has none for. -/
def NativeCall.peer : NativeCall m → Except String (HostCall m)
  | addProviders providers => .ok (.withSources (Bridge.toHostSources providers))
  | removeProviders _ => .error "remove_providers"
  | addFilters _ => .error "add_filters"
  | addConverter converter => .ok (.withConverter (Bridge.toHostConverter converter.tag converter))
  | addDefaultProviders => .ok .addDefaultSources
  | addDiscoveredProviders => .ok .addDiscoveredSources
  | addDefaultConverters => .ok .addDiscoveredConverters
  | withEnvironment environment => .ok (.forEnvironment environment)

def Builder.call (b : Builder m) : NativeCall m → m (Builder m)
  | .addProviders providers => return b.addProviders providers
  | .removeProviders names => return b.removeProviders names
  | .addFilters filters => return b.addFilters filters
  | .addConverter converter => return b.addConverters [converter]
  | .addDefaultProviders => b.addDefaultProviders
  | .addDiscoveredProviders => return b.addDiscoveredProviders
  | .addDefaultConverters => return b.addDefaultConverters
  | .withEnvironment environment => return b.withEnvironment environment

def note (names : List String) (name : String) : List String :=
  if names.contains name then names else names ++ [name]

mutual

/-- What a call does to a builder behind the library's contract. -/
def NativeBuilder.call (call : NativeCall m) : NativeBuilder m → m (NativeBuilder m)
  | .own b => return .own (← b.call call)
  | .overHost h rejected =>
    match call.peer with
    | .ok peer => return .overHost (← h.call peer) rejected
    | .error name => return .overHost h (note rejected name)
  | .handedOut rejected =>
    match call.peer with
    | .ok _ => return .handedOut rejected
    | .error name => return .handedOut (note rejected name)

def HostBuilder.call (call : HostCall m) : HostBuilder m → m (HostBuilder m)
  | .foreign f => return .foreign { f with received := f.received ++ [call] }
  | .overNative n => return .overNative (← n.call call.peer)
  | .handedOut => return .handedOut

end

/-- The failure of a build after calls without a peer. -/
def rejection (rejected : List String) : ConfigError :=
  .adapterRejection (", ".intercalate rejected) "host"

mutual

def NativeBuilder.build (tag : Tag) :
    NativeBuilder m → ExceptT ConfigError m (Configuration m)
  | .own b => b.build tag
  | .overHost h rejected => do
    if rejected ≠ [] then throw (rejection rejected)
    Bridge.toNativeConfig tag (← h.build tag)
  | .handedOut rejected => do
    if rejected ≠ [] then throw (rejection rejected)
    throw (.argument .builderGone)

def HostBuilder.build (tag : Tag) : HostBuilder m → ExceptT ConfigError m (HostConfig m)
  | .foreign f => f.build f.received tag
  | .overNative n => return Bridge.toHostConfig tag (← n.build tag)
  | .handedOut => throw (.argument .builderGone)

end

/-- Takes the host builder out of a builder that drives one. One that has noted a name keeps it. -/
def NativeBuilder.takeHost : NativeBuilder m → Option (HostBuilder m) × NativeBuilder m
  | .overHost h [] => (some h, .handedOut [])
  | b => (none, b)

/-- Takes the library's builder out of a builder that drives one. -/
def HostBuilder.takeNative : HostBuilder m → Option (NativeBuilder m) × HostBuilder m
  | .overNative n => (some n, .handedOut)
  | b => (none, b)

/-- The names of the calls without a peer, if the builder drives a host builder. -/
def NativeBuilder.rejected? : NativeBuilder m → Option (List String)
  | .own _ => none
  | .overHost _ rejected | .handedOut rejected => some rejected

namespace Bridge

def toHostBuilder (b : NativeBuilder m) : HostBuilder m :=
  match b.takeHost with
  | (some h, _) => h
  | (none, b) => .overNative b

def toNativeBuilder (b : HostBuilder m) : NativeBuilder m :=
  match b.takeNative with
  | (some n, _) => n
  | (none, b) => .overHost b []

end Bridge

end LayeredConfig

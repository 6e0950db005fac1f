import LayeredConfig.Context
import LayeredConfig.Key

/-!
Configurations: a context, and a view of it that says which keys are shown with which values.
A typed look-up converts the text that the view shows with the converters of the context; a view
over a host configuration leaves conversions to the host.
-/

namespace LayeredConfig

/-- A handle that looks a value up when it is asked. -/
structure Deferred (m : Type → Type) where
  key : String
  target : Descriptor
  resolve : ExceptT ConfigError m (Option Value)

/-- The result of a conversion: a value, or a handle that looks it up. -/
inductive Converted (m : Type → Type)
  | value (v : Value)
  | deferred (handle : Deferred m)

/-- The result as a value. A handle counts as a value of a type of its own. -/
def Converted.asValue {m : Type → Type} : Converted m → Value
  | .value v => v
  | .deferred handle => .custom "Deferred" handle.key

namespace Descriptor

/-- Refuses a target that does not describe the type that a caller takes. -/
def requireType (target : Descriptor) (typeName : String) : Except ConfigError Unit :=
  if target.describes typeName then .ok ()
  else .error (.argument (.wrongTarget target.display (plain typeName).display))

def take (target : Descriptor) (typeName : String) :
    Option Value → Except ConfigError (Option Value)
  | some v =>
    if v.typeName = typeName then .ok (some v)
    else .error (.argument (.foreignValue target.display))
  | none => .ok none

end Descriptor

def Deferred.get {m : Type → Type} [Monad m] (d : Deferred m) (typeName : String) :
    ExceptT ConfigError m (Option Value) := do
  d.target.requireType typeName
  d.target.take typeName (← d.resolve)

mutual

/-- What a view is made from. -/
inductive ViewKind (m : Type → Type)
  | context
  | derived
  | combined (name : String)
  | host (host : HostConfig m)

/-- What a configuration shows. -/
structure View (m : Type → Type) where
  tag : Tag
  get : String → ExceptT ConfigError m (Option PropertyValue)
  properties : ExceptT ConfigError m (KeyMap PropertyValue)
  kind : ViewKind m

/-- A configuration of the host framework. `native` is the configuration that it stands for, if
any. -/
structure HostConfig (m : Type → Type) where
  tag : Tag
  value : String → m (Option String)
  typedValue : String → Descriptor → ExceptT ConfigError m (Option (Converted m))
  propertyNames : m (List String)
  sources : m (List (HostSource m))
  native : Option (Configuration m)

/-- A context and a view of it. -/
structure Configuration (m : Type → Type) where
  context : Context m
  view : View m

end

namespace View

variable {m : Type → Type}

def host? (v : View m) : Option (HostConfig m) :=
  match v.kind with
  | .host h => some h
  | _ => none

def combinedName? (v : View m) : Option String :=
  match v.kind with
  | .combined name => some name
  | _ => none

def isPlain (v : View m) : Bool :=
  match v.kind with
  | .context => true
  | _ => false

def ofContext [Monad m] (tag : Tag) (c : Context m) : View m where
  tag := tag
  get key := ExceptT.lift (c.resolve key)
  properties := c.resolveAll
  kind := .context

end View

namespace Configuration

variable {m : Type → Type}

def same (a b : Configuration m) : Bool :=
  a.context.tag = b.context.tag && a.view.tag = b.view.tag

def withView (c : Configuration m) (view : View m) : Configuration m := { c with view }

variable [Monad m]

def ofContext (tag : Tag) (context : Context m) : Configuration m :=
  ⟨context, .ofContext tag context⟩

def empty (tag : Tag) : Configuration m := ofContext tag (.empty tag)

def getValue (c : Configuration m) (key : String) : ExceptT ConfigError m (Option PropertyValue) := do
  ConfigError.requireKey key
  c.view.get key

def get (c : Configuration m) (key : String) : ExceptT ConfigError m (Option String) := do
  return (← c.getValue key).bind (·.value)

def getOr (c : Configuration m) (key fallback : String) : ExceptT ConfigError m String := do
  return (← c.get key).getD fallback

def getPropertyValues (c : Configuration m) : ExceptT ConfigError m (KeyMap PropertyValue) :=
  c.view.properties

def getProperties (c : Configuration m) : ExceptT ConfigError m (KeyMap String) := do
  return (← c.view.properties).payloads

def sectionNames (c : Configuration m) : ExceptT ConfigError m (KeyMap Unit) := do
  return Key.directSections (← c.view.properties).keys

def transitiveSectionNames (c : Configuration m) : ExceptT ConfigError m (KeyMap Unit) := do
  return Key.transitiveSections (← c.view.properties).keys

def ambient (c : Configuration m) : Ambient m := ⟨c.get, c.context.providers.map (·.name)⟩

/-- Asks converters one after another until one yields; one that fails counts as declining. The
formats advertised on the way are collected in the request. -/
def firstYield (ask : Converter m → ConversionRequest m → m ConversionReply)
    (r : ConversionRequest m) : List (Converter m) → m (Option Value × ConversionRequest m)
  | [] => pure (none, r)
  | c :: rest => do
    let reply ← ask c r
    match reply.outcome with
    | .ok (some v) => return (some v, r.advertise reply.adverts)
    | _ => firstYield ask (r.advertise reply.adverts) rest

/-- Converts a text with some converters; the request says for what. Without a converter that
yields, an optional target lacks a value and any other one is an error. -/
def convertText (text : String) (r : ConversionRequest m) (converters : List (Converter m)) :
    ExceptT ConfigError m (Option (Converted m)) := do
  match ← ExceptT.lift (firstYield (fun c r => c.convert r text) r converters) with
  | (some v, _) => return some (.value v)
  | (none, r) =>
    if r.target.wrapping = .optional then return none
    else throw (.conversionFailed r.key r.target.effective.display text r.formats)

/-- Without a text, only the converters of an optional target have a say. -/
def convertNothing (r : ConversionRequest m) (converters : List (Converter m)) :
    ExceptT ConfigError m (Option (Converted m)) := do
  if r.target.wrapping = .optional then
    let (v, _) ← ExceptT.lift (firstYield (fun c r => c.convertAbsent r) r converters)
    return v.map .value
  else return none

/-- Converts what the view shows under a key with the converters of the context. The declared
fallback stands in for a missing text. -/
def convertShown (c : Configuration m) (key : String) (target : Descriptor)
    (hints : Option Hints) : ExceptT ConfigError m (Option (Converted m)) := do
  let raw := (← c.get key).or (hints.bind (·.fallback))
  let converters := c.context.converters.find target.typeName
  if target.isText && converters.isEmpty then return raw.map fun s => .value (.text s)
  let request : ConversionRequest m := ⟨key, target, some c.ambient, hints, []⟩
  match raw with
  | some text => convertText text request converters
  | none => convertNothing request converters

/-- Converts the value of a key, or of the key that the hints declare instead. Without hints, a
view over a host configuration leaves the conversion to the host. -/
def lookup (c : Configuration m) (key : String) (target : Descriptor) (hints : Option Hints) :
    ExceptT ConfigError m (Option (Converted m)) := do
  ConfigError.requireKey key
  let key := (hints.bind (·.name)).getD key
  match hints, c.view.host? with
  | none, some h => h.typedValue key target
  | _, _ => c.convertShown key target hints

/-- The handle that looks up the effective target when it is asked. -/
def deferred (c : Configuration m) (key : String) (target : Descriptor) (hints : Option Hints) :
    Deferred m where
  key := key
  target := target.effective
  resolve := do return (← c.lookup key target.effective hints).map Converted.asValue

/-- Converts a value without saying which type the caller takes; a deferred target gives a
handle. -/
def convertAny (c : Configuration m) (key : String) (target : Descriptor) (hints : Option Hints) :
    ExceptT ConfigError m (Option (Converted m)) := do
  match target.wrapping with
  | .deferred =>
    ConfigError.requireKey key
    return some (.deferred (c.deferred key target hints))
  | _ => c.lookup key target hints

/-- Converts a value to a type; a deferred target is looked up at once. -/
def convert (c : Configuration m) (typeName key : String) (target : Descriptor)
    (hints : Option Hints) : ExceptT ConfigError m (Option Value) := do
  target.requireType typeName
  match target.wrapping with
  | .deferred =>
    ConfigError.requireKey key
    (c.deferred key target hints).get typeName
  | _ => target.take typeName ((← c.lookup key target hints).map Converted.asValue)

def getAs (c : Configuration m) (typeName key : String) : ExceptT ConfigError m (Option Value) :=
  c.convert typeName key (.plain typeName) none

/-- A value of a type, or nothing if the key has none or the text is not understood. -/
def getOptional (c : Configuration m) (typeName key : String) :
    ExceptT ConfigError m (Option Value) :=
  c.convert typeName key (.optional typeName) none

def getWithHints (c : Configuration m) (typeName key : String) (hints : Hints) :
    ExceptT ConfigError m (Option Value) :=
  c.convert typeName key (.plain typeName) (some hints)

def getAsOr (c : Configuration m) (typeName key : String) (fallback : Value) :
    ExceptT ConfigError m Value := do
  return (← c.getAs typeName key).getD fallback

def require (c : Configuration m) (typeName key : String) : ExceptT ConfigError m Value := do
  match ← c.getAs typeName key with
  | some v => return v
  | none => throw (.keyNotFound key)

omit [Monad m] in
def describe (c : Configuration m) : String :=
  "Configuration \x7b context: " ++ c.context.describe ++ ", .. \x7d"

end Configuration

end LayeredConfig

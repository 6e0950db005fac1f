import LayeredConfig.Bridge.Builder
import LayeredConfig.Literal.Reading

/-!
A small host framework: sources of fixed texts, configurations that know three types, and a builder
that collects sources.
-/

namespace LayeredConfig.Sample

variable {m : Type → Type} [Monad m]

def hostSource (tag : Tag) (name : String) (ordinal : Int) (texts : KeyMap String) :
    HostSource m where
  tag := tag
  name := name
  ordinal := return ordinal
  properties := return texts
  value key := return texts.get? key
  provider := none

/-- What the host takes for an integer of 64 bits; it declines one word. -/
def readHostInteger (text : String) : ConversionOutcome :=
  let s := Text.trim text.toList
  if s = "none".toList then .ok none
  else match Literal.readInteger 10 IntegerKind.i64.lo IntegerKind.i64.hi s with
    | .ok n => .ok (some (.integer .i64 n))
    | .error e => .error (.literal e)

def hostInteger (tag : Tag) : HostConverter m where
  tag := tag
  target := "i64"
  convert text := return readHostInteger text
  native := none

def readHostBoolean (text : String) : Option Value :=
  match String.ofList (Text.trim text.toList) with
  | "true" => some (.boolean true)
  | "false" => some (.boolean false)
  | _ => none

def hostValue? (text typeName : String) : Option Value :=
  if typeName = "String" then some (.text text)
  else if typeName = "bool" then readHostBoolean text
  else if typeName = "i64" then
    match readHostInteger text with
    | .ok v => v
    | .error _ => none
  else none

def firstValue (key : String) : List (HostSource m) → m (Option String)
  | [] => return none
  | s :: rest => do
    match ← s.value key with
    | some text => return some text
    | none => firstValue key rest

def allNames (acc : KeyMap Unit) : List (HostSource m) → m (List String)
  | [] => return acc.keys
  | s :: rest => do
    let texts ← s.properties
    allNames (acc.insertAll (texts.keys.map (·, ()))) rest

def rank : List (HostSource m) → m (List (Int × HostSource m))
  | [] => return []
  | s :: rest => do
    let n ← s.ordinal
    return (n, s) :: (← rank rest)

/-- How a host configuration misbehaves: it may give texts for any type, and keep its sources to
itself. -/
structure Manners where
  lies : Bool
  nameless : Bool

/-- A host configuration over sources, those with the higher ordinals first. -/
def hostConfig (tag : Tag) (sources : List (HostSource m)) (manners : Manners) :
    m (HostConfig m) := do
  let ranked ← rank sources
  let sources := (ranked.mergeSort fun a b => b.1 ≤ a.1).map (·.2)
  return {
    tag
    value := fun key => firstValue key sources
    typedValue := fun key target => do
      match ← (firstValue key sources : m (Option String)) with
      | none => return none
      | some text =>
        match hostValue? text (if manners.lies then "String" else target.typeName) with
        | some v => return some (.value v)
        | none =>
          if target.wrapping = .optional then return none
          else throw (.conversionFailed key target.effective.display text ["decimal (host)"])
    propertyNames := allNames .empty sources
    sources := return if manners.nameless then [] else sources
    native := none }

/-- A host configuration that passes everything on to another one. -/
def passthrough (tag : Tag) (h : HostConfig m) : HostConfig m := { h with tag, native := none }

def sourcesOf : HostCall m → List (HostSource m)
  | .withSources sources => sources
  | .addDefaultSources => [hostSource 0 "host-defaults" 0 (.ofList [("host.default", "yes")])]
  | .addDiscoveredSources =>
    [hostSource 0 "host-discovered" 1 (.ofList [("host.discovered", "yes")])]
  | .forEnvironment e =>
    [hostSource 0 "host-environment" (-1) (.ofList [("host.environment", e.name)])]
  | .withConverter _ | .addDiscoveredConverters => []

/-- The host's builder: it collects sources and passes over converters. -/
def hostBuilder : ForeignBuilder m where
  received := []
  build calls tag := do return ← (hostConfig tag (calls.flatMap sourcesOf) ⟨false, false⟩ : m _)

end LayeredConfig.Sample

import LayeredConfig.Error
import LayeredConfig.Json
import LayeredConfig.KeyMap

/-!
Property values: a key, a payload that may be absent, the name of the provider it came from, and
free metadata. Key and source of a value are never empty (`PropertyValue.Valid`); the ways to make
a value check this.
-/

namespace LayeredConfig

/-- A value as a provider holds it. An absent payload says that the key is known without a value. -/
structure PropertyValue where
  key : String
  value : Option String
  source : String
  metadata : KeyMap String
  deriving DecidableEq

namespace PropertyValue

def Valid (v : PropertyValue) : Prop := v.key ≠ "" ∧ v.source ≠ ""

/-- Makes a value without metadata; the key is checked before the source. -/
def create (key : String) (value : Option String) (source : String) :
    Except ConfigError PropertyValue := do
  ConfigError.requireKey key
  if source = "" then throw (.argument (.emptySource key))
  return ⟨key, value, source, .empty⟩

def of (key value source : String) : Except ConfigError PropertyValue :=
  create key (some value) source

def absent (key source : String) : Except ConfigError PropertyValue := create key none source

theorem create_eq_ok_iff {key source : String} {value : Option String} {v : PropertyValue} :
    create key value source = .ok v ↔ key ≠ "" ∧ source ≠ "" ∧ v = ⟨key, value, source, .empty⟩ := by
  simp only [create, ConfigError.requireKey]
  by_cases hk : key = ""
  · simp [hk, bind, Except.bind]
  · by_cases hs : source = ""
    · simp [hk, hs, bind, Except.bind, throw, throwThe, MonadExceptOf.throw]
    · simp [hk, hs, bind, Except.bind, pure, Except.pure, eq_comm]

def withMeta (v : PropertyValue) (name value : String) : PropertyValue :=
  { v with metadata := v.metadata.insert name value }

def withValue (v : PropertyValue) (value : String) : PropertyValue := { v with value := some value }

def withKey (v : PropertyValue) (key : String) : Except ConfigError PropertyValue := do
  ConfigError.requireKey key
  return { v with key }

/-- The display text: `key=value (source)`. -/
def display (v : PropertyValue) : String :=
  let payload := v.value.getD "<absent>"
  s!"{v.key}={payload} ({v.source})"

/-- Values for plain entries, all of one source; the last entry with a key counts. -/
def mapOf (entries : List (String × String)) (source : String) :
    Except ConfigError (KeyMap PropertyValue) :=
  go .empty entries
where
  go (acc : KeyMap PropertyValue) : List (String × String) → Except ConfigError (KeyMap PropertyValue)
    | [] => .ok acc
    | (key, value) :: rest => do
      let v ← of key value source
      go (acc.insert key v) rest

def toJson (v : PropertyValue) : Json :=
  .object ([("key", .text v.key), ("value", (v.value.map Json.text).getD .null),
      ("source", .text v.source)] ++
    if v.metadata.isEmpty then []
    else [("meta", .object (v.metadata.entries.map fun e => (e.1, .text e.2)))])

/-- Why a JSON value is no property value. -/
inductive ReadFault
  | malformed
  | rejected (error : ConfigError)

def readText : Json → Except ReadFault String
  | .text s => .ok s
  | _ => .error .malformed

def readOptional : Json → Except ReadFault (Option String)
  | .null => .ok none
  | .text s => .ok (some s)
  | _ => .error .malformed

def readTexts (acc : KeyMap String) : List (String × Json) → Except ReadFault (KeyMap String)
  | [] => .ok acc
  | (name, v) :: rest => do
    let s ← readText v
    readTexts (acc.insert name s) rest

def readMeta : Json → Except ReadFault (KeyMap String)
  | .object members => readTexts .empty members
  | _ => .error .malformed

def assemble (key : String) (value : Option String) (source : String) (metadata : KeyMap String) :
    Except ReadFault PropertyValue :=
  match create key value source with
  | .ok v => .ok { v with metadata }
  | .error e => .error (.rejected e)

/-- Reads a value from JSON: an object, in which payload and metadata may be missing and unknown
members are ignored, or the list of the members in their order, in which metadata may be missing.
The types of all members are checked before their content. -/
def ofJson : Json → Except ReadFault PropertyValue
  | .object members => do
    let some keyJson := Json.member? members "key" | throw .malformed
    let some sourceJson := Json.member? members "source" | throw .malformed
    let key ← readText keyJson
    let value ← readOptional ((Json.member? members "value").getD .null)
    let source ← readText sourceJson
    let metadata ← readMeta ((Json.member? members "meta").getD (.object []))
    assemble key value source metadata
  | .list (key :: value :: source :: rest) => do
    let key ← readText key
    let value ← readOptional value
    let source ← readText source
    match rest with
    | [] => assemble key value source .empty
    | [metadata] => assemble key value source (← readMeta metadata)
    | _ => throw .malformed
  | _ => .error .malformed

end PropertyValue

def KeyMap.payloads (m : KeyMap PropertyValue) : KeyMap String := m.filterMap fun _ v => v.value

end LayeredConfig

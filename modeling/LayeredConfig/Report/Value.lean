import LayeredConfig.Converter
import LayeredConfig.Json
import LayeredConfig.PropertyValue

/-!
Reports on values and failures, as JSON for tools that watch the engine.
-/

namespace LayeredConfig

def KeyMap.report {β : Type} (f : β → Json) (m : KeyMap β) : Json :=
  .object (m.entries.map fun e => (e.1, f e.2))

def KeyMap.reportTexts (m : KeyMap String) : Json := m.report .text

def padHex (width n : Nat) : String :=
  let digits := Nat.toDigits 16 n
  String.ofList (List.replicate (width - digits.length) '0' ++ digits)

/-- The report of a value: a truth value as such, a float by the digits of its bits, a duration by
its milliseconds, and anything else by its text. -/
def Value.report : Value → Json
  | .boolean b => .bool b
  | .text s | .path s | .custom _ s => .text s
  | .integer _ n => .text (toString n)
  | .float _ .undefined => .text "NaN"
  | .float w (.bits n) => .text (padHex (w.size / 4) n)
  | .character c => .text c.toString
  | .ipAddress a => .text a.toText
  | .socketAddress a => .text a.toText
  | .url u => .text u.toText
  | .duration n => .text (toString n)

def Value.reportOptional : Option Value → Json
  | some v => v.report
  | none => .null

def ConversionOutcome.report : ConversionOutcome → List (String × Json)
  | .ok v => [("value", Value.reportOptional v)]
  | .error e => [("failed", .text e.message)]

/-- The report of an answer, with the formats that it adds to a request. -/
def ConversionReply.report (r : ConversionReply) : List (String × Json) :=
  let request : ConversionRequest Id := .minimal "" (.plain "")
  r.outcome.report ++ [("formats", .texts (request.advertise r.adverts).formats)]

def PropertyValue.report (v : PropertyValue) : Json :=
  .object [("key", .text v.key), ("value", .optional v.value), ("source", .text v.source),
    ("meta", v.metadata.reportTexts)]

def PropertyValue.reportOptional : Option PropertyValue → Json
  | some v => v.report
  | none => .null

def Hints.report (h : Hints) : Json :=
  .object [("default", .optional h.fallback), ("name", .optional h.name),
    ("annotations", h.annotations.reportTexts)]

def Descriptor.report (d : Descriptor) : List (String × Json) :=
  let kind := match d.wrapping with
    | .plain => "Plain"
    | .optional => "Optional"
    | .deferred => "Provider"
  [("simple", .text d.simpleName), ("display", .text d.display), ("kind", .text kind),
    ("args", .texts (d.args.map Descriptor.display)), ("effective", .text d.effective.display),
    ("effective_is_self", .bool (d.effective = d)), ("is_string", .bool d.isText)]

def ConfigError.kind : ConfigError → String
  | .keyNotFound _ => "KeyNotFound"
  | .conversionFailed .. => "ConversionFailed"
  | .source .. => "SourceError"
  | .parse .. => "ParseError"
  | .commitFailed .. => "CommitFailed"
  | .requestClosed .. => "RequestClosed"
  | .argument _ => "InvalidArgument"
  | .adapterRejection .. => "AdapterRejection"
  | .inputOutput _ => "IoError"

/-- Whether the wording of a failure is that of the system, which reports leave out. -/
def ConfigError.wordsOpen : ConfigError → Bool
  | .inputOutput _ => true
  | .commitFailed _ _ _ cause => cause.wordsOpen
  | _ => false

def ConfigError.reportHead (e : ConfigError) : List (String × Json) :=
  [("error", .text e.kind), ("config_failure", .bool e.isConfigFailure)] ++
    if e.wordsOpen then [] else [("message", .text e.message)]

mutual

def ConfigError.reportMembers (e : ConfigError) : List (String × Json) :=
  e.reportHead ++
    match e with
    | .conversionFailed _ _ _ formats => [("formats", .texts formats)]
    | .source _ _ (some c) | .parse _ (some c) => [("cause", c.report)]
    | .commitFailed backend committed cancelled cause =>
      [("backend", .text backend), ("committed", .texts committed),
        ("cancelled", .texts cancelled), ("cause", .object cause.reportMembers)]
    | .inputOutput kind => [("io", .text kind.name)]
    | _ => []

def Cause.report : Cause → Json
  | .text t => .text t
  | .inputOutput kind => .object [("io", .text kind.name)]
  | .error e => .object e.reportMembers

end

def ConfigError.report (e : ConfigError) : Json := .object e.reportMembers

def PropertyValue.reportBoth (v : PropertyValue) : List (String × Json) :=
  [("value", v.report), ("back", v.toJson)]

def PropertyValue.ReadFault.report : PropertyValue.ReadFault → List (String × Json)
  | .malformed => [("error", .text "Malformed")]
  | .rejected e => [("error", .text "Rejected"), ("message", .text e.message)]

/-- The report of the payloads of a map, with the property values that they make for a source. -/
def KeyMap.reportPayloads (m : KeyMap PropertyValue) (source : String) : List (String × Json) :=
  let tagged := match PropertyValue.mapOf m.payloads.entries source with
    | .ok values => values.report PropertyValue.report
    | .error e => e.report
  [("strings", m.payloads.reportTexts), ("tagged", tagged)]

end LayeredConfig

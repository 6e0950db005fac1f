import LayeredConfig.Bridge.Converter
import LayeredConfig.Environment.Standard
import LayeredConfig.Report.Value

/-!
Reports on converters by themselves, outside of any configuration, as JSON for tools that watch the
engine.
-/

namespace LayeredConfig

/-- The report of a text, with all that a standard converter makes of it. -/
def Conversion.report (c : Conversion) (text : String) : List (String × Json) :=
  (c.reply text).report

/-- The report of the standard converter to a type: its place among all, its descriptions, its
answer to a missing text, whether it is one for its own type and for another one, and whether it
comes back from the host. -/
def Conversion.reportEntry? (typeName other : String) : Option (List (String × Json)) := do
  let all : List (Converter Id) := Conversion.converters
  let index ← all.findIdx? (·.target = typeName)
  let c ← all[index]?
  let host := Bridge.toHostConverter all.length c
  let back := Bridge.toNativeConverter (all.length + 1) host
  let absent := (c.convertAbsent (.minimal "" (.plain typeName))).outcome
  return [("index", .integer index), ("count", .integer all.length),
    ("target", .text c.targetText), ("debug", .text c.describe), ("absent", .object absent.report),
    ("typed", .list [.bool (c.typed? typeName).isSome, .bool (c.typed? other).isSome]),
    ("host", .text host.describe), ("host_target", .text host.targetText),
    ("back", .bool (back.tag == c.tag))]

/-- The report of a text, with what a converter makes of it after it went over to the host. -/
def Converter.reportBridged (c : Converter Id) (text : String) : List (String × Json) :=
  let host := Bridge.toHostConverter (c.tag + 1) c
  [("host", .object (host.convert text).report),
    ("wrapped_is_native", .bool (host.native.any (·.tag == c.tag))),
    ("round_trip_same", .bool ((Bridge.toNativeConverter (c.tag + 2) host).tag == c.tag))]

/-- The report of a text, with what a converter of the host makes of it after it was taken over. -/
def HostConverter.reportBridged (h : HostConverter Id) (other text : String) :
    List (String × Json) :=
  let c := Bridge.toNativeConverter (h.tag + 1) h
  let request : ConversionRequest Id := .minimal "" (.plain h.target)
  let reply := c.convert request text
  [("host", .object (h.convert text).report), ("native", .object reply.outcome.report),
    ("absent", .object (c.convertAbsent request).outcome.report),
    ("formats", .texts (request.advertise reply.adverts).formats),
    ("wrapped_is_host", .bool (c.host.any (·.tag == h.tag))),
    ("round_trip_same", .bool ((Bridge.toHostConverter (h.tag + 2) c).tag == h.tag)),
    ("entry", .text h.describe),
    ("entry_typed", .list [.bool (h.typed? h.target).isSome, .bool (h.typed? other).isSome]),
    ("native_entry", .text c.describe), ("native_target", .text c.targetText)]

/-- The report of a conversion that is asked for, with the formats listed after each step. -/
def ConversionRequest.report {m : Type → Type} (r : ConversionRequest m)
    (steps : List (List String)) : List (String × Json) :=
  [("key", .text r.key), ("target", .text r.target.display),
    ("configuration", .bool r.ambient.isSome), ("context", .bool r.ambient.isSome),
    ("hints", (r.hints.map Hints.report).getD .null), ("steps", .list (steps.map .texts))]

def ConversionRequest.listings {m : Type → Type} (r : ConversionRequest m) :
    List (String × List String) → List (List String)
  | [] => []
  | advert :: rest =>
    let r := r.advertise [advert]
    r.formats :: r.listings rest

end LayeredConfig

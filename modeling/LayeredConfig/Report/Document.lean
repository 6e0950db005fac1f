import LayeredConfig.Format.Document
import LayeredConfig.Report.Value

/-!
Reports on property documents, as JSON for tools that watch the engine: a document is read and
written again, or written and read back.
-/

namespace LayeredConfig.DocumentFormat

def reportReading (f : DocumentFormat) (text : String) (shown : KeyMap String → Json) : Json :=
  match f.parse text with
  | .ok properties => shown properties
  | .error fault => fault.toError.report

/-- The report of properties, with their rendering and whether it reads as the same properties. -/
def reportParsed (f : DocumentFormat) (properties : KeyMap String) : List (String × Json) :=
  let rendered := f.render properties
  [("properties", properties.reportTexts), ("rendered", .text rendered),
    ("round_trip", f.reportReading rendered fun again => .bool (again == properties))]

def reportRendered (f : DocumentFormat) (properties : KeyMap String) : List (String × Json) :=
  let rendered := f.render properties
  [("rendered", .text rendered), ("reparsed", f.reportReading rendered KeyMap.reportTexts)]

end LayeredConfig.DocumentFormat

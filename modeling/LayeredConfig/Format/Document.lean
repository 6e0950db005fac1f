import LayeredConfig.Format.Flat
import LayeredConfig.Format.Xml

/-!
The formats of property documents.
-/

namespace LayeredConfig

/-- A format of property documents. -/
inductive DocumentFormat
  | flat | xml
  deriving DecidableEq, Repr

namespace DocumentFormat

def parse : DocumentFormat → String → Except Format.DocumentFault (KeyMap String)
  | .flat => Format.Flat.parse
  | .xml => Format.Xml.parse

def render : DocumentFormat → KeyMap String → String
  | .flat => Format.Flat.render
  | .xml => Format.Xml.render

def extensions : DocumentFormat → List String
  | .flat => ["properties"]
  | .xml => ["xml"]

end DocumentFormat

end LayeredConfig

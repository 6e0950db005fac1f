import LayeredConfig.Error

/-!
Why a document cannot be read.
-/

namespace LayeredConfig.Format

/-- Why the key or the value of a flat entry cannot be decoded. -/
inductive EscapeFault
  | malformed (digits : List Char)
  | noCharacter (digits : List Char)
  deriving DecidableEq

def EscapeFault.message : EscapeFault → String
  | .malformed digits => "malformed \\u escape '\\u" ++ String.ofList digits ++ "'"
  | .noCharacter digits => "escape '\\u" ++ String.ofList digits ++ "' is not a character"

/-- Why an XML document cannot be read. -/
inductive MarkupFault
  | openComment | noRoot | openRootTag | openRoot
  | openEntryTag | noKey | openEntry (key : List Char)
  | openReference | unknownReference (name : List Char)
  deriving DecidableEq

def MarkupFault.message : MarkupFault → String
  | .openComment => "unterminated comment"
  | .noRoot => "missing <properties> root"
  | .openRootTag => "unterminated <properties> tag"
  | .openRoot => "missing </properties>"
  | .openEntryTag => "unterminated <entry> tag"
  | .noKey => "<entry> without a key attribute"
  | .openEntry key => s!"entry '{String.ofList key}' is not closed"
  | .openReference => "unterminated entity reference"
  | .unknownReference name => s!"unknown entity '&{String.ofList name};'"

/-- Why a document cannot be read; in a flat document, with the number of the line on which the
faulty entry starts. -/
inductive DocumentFault
  | line (number : Nat) (fault : EscapeFault)
  | markup (fault : MarkupFault)
  deriving DecidableEq

def DocumentFault.message : DocumentFault → String
  | .line number fault => s!"line {number}: {fault.message}"
  | .markup fault => s!"invalid XML properties: {fault.message}"

def DocumentFault.toError (f : DocumentFault) : ConfigError := .parse f.message none

end LayeredConfig.Format

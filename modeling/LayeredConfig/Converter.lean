import LayeredConfig.Descriptor
import LayeredConfig.Error
import LayeredConfig.Hints
import LayeredConfig.Value
import LayeredConfig.Change.Request

/-!
Converters from texts to typed values, of the library and of a host framework. A converter of the
library sees the request that it serves, and says which formats it understands.
-/

namespace LayeredConfig

/-- Why a converter fails. -/
inductive ConversionFault
  | literal (fault : LiteralFault)
  | because (text : String)

def ConversionFault.message : ConversionFault → String
  | .literal fault => fault.message
  | .because text => text

/-- What a converter makes of a text: a value, nothing if it declines, or a fault. -/
abbrev ConversionOutcome := Except ConversionFault (Option Value)

/-- What a converter can ask of the configuration that a conversion runs in. -/
structure Ambient (m : Type → Type) where
  get : String → ExceptT ConfigError m (Option String)
  providers : List String

/-- One conversion: the key and the target asked for, the configuration around it, the hints of the
caller, and the formats that the converters before have advertised. -/
structure ConversionRequest (m : Type → Type) where
  key : String
  target : Descriptor
  ambient : Option (Ambient m)
  hints : Option Hints
  formats : List String

def addFormats (listed : List String) (converter : String) (formats : List String) : List String :=
  formats.foldl (fun listed format =>
    let entry := s!"{format} ({converter})"
    if listed.contains entry then listed else listed ++ [entry]) listed

namespace ConversionRequest

variable {m : Type → Type}

def minimal (key : String) (target : Descriptor) : ConversionRequest m :=
  ⟨key, target, none, none, []⟩

def advertise (r : ConversionRequest m) (adverts : List (String × List String)) :
    ConversionRequest m :=
  { r with formats := adverts.foldl (fun listed a => addFormats listed a.1 a.2) r.formats }

end ConversionRequest

/-- The answer of a converter: the formats that it advertises, each list with the name it is
advertised under, and the outcome. -/
structure ConversionReply where
  adverts : List (String × List String)
  outcome : ConversionOutcome

mutual

/-- A converter for one target type. `host` is the host's converter that it stands for, if any. -/
structure Converter (m : Type → Type) where
  tag : Tag
  target : String
  convert : ConversionRequest m → String → m ConversionReply
  convertAbsent : ConversionRequest m → m ConversionReply
  host : Option (HostConverter m)

/-- A converter of the host framework for one target type. `native` is the converter of the library
that it stands for, if any. -/
structure HostConverter (m : Type → Type) where
  tag : Tag
  target : String
  convert : String → m ConversionOutcome
  native : Option (Converter m)

end

variable {m : Type → Type}

def Converter.targetText (c : Converter m) : String := (Descriptor.plain c.target).display

def Converter.typed? (c : Converter m) (typeName : String) : Option (Converter m) :=
  if c.target = typeName then some c else none

def Converter.describe (c : Converter m) : String :=
  Text.describeRecord "ConverterEntry" [("target", Text.quoted c.targetText)]

def HostConverter.targetText (c : HostConverter m) : String := (Descriptor.plain c.target).display

def HostConverter.typed? (c : HostConverter m) (typeName : String) : Option (HostConverter m) :=
  if c.target = typeName then some c else none

def HostConverter.describe (c : HostConverter m) : String :=
  Text.describeRecord "HostConverterEntry" [("target", Text.quoted c.targetText)]

/-- A converter that has nothing to say when there is no text. -/
def Converter.make [Monad m] (tag : Tag) (target : String)
    (convert : ConversionRequest m → String → m ConversionReply) : Converter m :=
  { tag, target, convert, convertAbsent := fun _ => pure ⟨[], .ok none⟩, host := none }

end LayeredConfig

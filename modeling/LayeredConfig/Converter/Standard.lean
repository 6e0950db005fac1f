import LayeredConfig.Converter
import LayeredConfig.Literal.Reading

/-!
The standard conversions: for each of the standard types, what a text denotes and which formats the
converter advertises. `Conversion.bundle` lists them in the order in which they are registered.
-/

namespace LayeredConfig

/-- A conversion to a standard type. Addresses are advertised under a format of the caller's
choice. -/
inductive Conversion
  | text
  | boolean
  | integer (kind : IntegerKind)
  | float (width : FloatWidth)
  | character
  | path
  | ipAddress (format : String)
  | socketAddress (format : String)
  | url (format : String)
  | duration
  deriving DecidableEq

namespace Conversion

def target : Conversion → String
  | text => "String"
  | boolean => "bool"
  | integer kind => kind.name
  | float width => width.name
  | character => "char"
  | path => "PathBuf"
  | ipAddress _ => "IpAddr"
  | socketAddress _ => "SocketAddr"
  | url _ => "Url"
  | duration => "Duration"

def name : Conversion → String
  | text => "StringConverter"
  | boolean => "BoolConverter"
  | integer _ => "IntegerConverter"
  | float _ => "FloatConverter"
  | character => "CharConverter"
  | path => "PathConverter"
  | ipAddress _ | socketAddress _ | url _ => "FromStrConverter"
  | duration => "DurationConverter"

def formats : Conversion → List String
  | text => ["<text>"]
  | boolean => ["true", "yes", "1", "on", "false", "no", "0", "off"]
  | integer _ => ["<integer>", "0x<hex>", "#<hex>", "MIN", "MAX"]
  | float _ => ["<float>", "NaN", "inf", "MIN", "MAX"]
  | character => ["<char>", "'<char>'"]
  | path => ["<path>"]
  | ipAddress format | socketAddress format | url format => [format]
  | duration => ["<n>", "<n>ms", "<n>s", "<n>m", "<n>h"]

def declining {α : Type} (f : α → Value) (r : Option α) : ConversionOutcome := .ok (r.map f)

def failing {α : Type} (f : α → Value) : Except LiteralFault α → ConversionOutcome
  | .ok x => .ok (some (f x))
  | .error e => .error (.literal e)

theorem failing_eq_some_iff {α : Type} {f : α → Value} {r : Except LiteralFault α} {v : Value} :
    failing f r = .ok (some v) ↔ ∃ x, r = .ok x ∧ f x = v := by
  cases r <;> simp [failing]

theorem failing_cases {α : Type} (f : α → Value) (r : Except LiteralFault α) :
    (∃ v, failing f r = .ok (some v)) ∨ ∃ fault, failing f r = .error (.literal fault) := by
  cases r with
  | ok x => exact .inl ⟨f x, rfl⟩
  | error fault => exact .inr ⟨fault, rfl⟩

def read (s : List Char) : Conversion → ConversionOutcome
  | text => .ok (some (.text (String.ofList s)))
  | boolean => declining .boolean (Literal.readBoolean s)
  | integer kind => failing (.integer kind) (Literal.readIntegerOf kind s)
  | float width => failing (.float width) (Literal.readFloatOf width s)
  | character => declining .character (Literal.readCharacter s)
  | path => declining .path (Literal.readPath s)
  | ipAddress _ => failing .ipAddress (Literal.readIpAddressOf s)
  | socketAddress _ => failing .socketAddress (Literal.readSocketAddressOf s)
  | url _ => failing .url (Literal.readUrlOf s)
  | duration => failing .duration (Literal.readDuration s)

def reply (c : Conversion) (s : String) : ConversionReply :=
  ⟨[(c.name, c.formats)], c.read s.toList⟩

def toConverter {m : Type → Type} [Monad m] (c : Conversion) (tag : Tag) : Converter m :=
  .make tag c.target fun _ s => pure (c.reply s)

/-- The description of a conversion to numbers: its name and the number type. -/
def describeNumeric (c : Conversion) : String := s!"{c.name}<{c.target}>"

/-- The description of a conversion to addresses; the target stands with its full name. -/
def describeParsed (c : Conversion) (fullName : String) : String :=
  Text.describeRecord c.name
    [("target", Text.quoted fullName), ("format", Text.quoted (String.join c.formats))]

/-- All standard conversions in the order of their registration. -/
def bundle : List Conversion :=
  [text, boolean] ++ IntegerKind.all.map integer ++
    [float .single, float .double, character, path, ipAddress "<ip address>", url "<url>", duration]

def forType? (typeName : String) : Option Conversion := bundle.find? (·.target = typeName)

end Conversion

end LayeredConfig

import LayeredConfig.Converter
import LayeredConfig.Literal.Reading

/-!
Sample converters: converters that follow a rule, converters with an answer for a missing text, and
a probe that answers with what it sees of the conversion.
-/

namespace LayeredConfig.Sample

/-- The types that sample converters make. -/
inductive Product
  | text | integer (kind : IntegerKind) | date
  deriving DecidableEq

namespace Product

def typeName : Product → String
  | text => "String"
  | integer kind => kind.name
  | date => "Date"

def part (kind : IntegerKind) (s : List Char) : Except ConversionFault Int :=
  match Literal.readInteger 10 kind.lo kind.hi s with
  | .ok n => .ok n
  | .error e => .error (.literal e)

/-- Makes a value of a text: a text as it is, an integer in decimal digits, a date of three numbers
between hyphens. -/
def make (s : String) : Product → ConversionOutcome
  | text => .ok (some (.text s))
  | integer kind => do return some (.integer kind (← part kind s.toList))
  | date =>
    match Text.splitBy (· = '-') (Text.trim s.toList) with
    | [year, month, day] => do
      let year ← part .u16 year
      let month ← part .u8 month
      let day ← part .u8 day
      return some (.custom "Date" s!"{year}/{month}/{day}")
    | _ => .ok none

end Product

/-- What a converter does with a text. -/
inductive Rule
  | decline
  | fail (text : String)
  | const (text : String)
  | lead (text : String)
  | parse

def Rule.apply (product : Product) (value : String) : Rule → ConversionOutcome
  | decline => .ok none
  | fail text => .error (.because text)
  | const text => product.make text
  | lead text => product.make (text ++ value)
  | parse => product.make value

variable {m : Type → Type} [Monad m]

def ruled (tag : Tag) (product : Product) (name : String) (formats : List String) (rule : Rule) :
    Converter m :=
  .make tag product.typeName fun _ value => pure ⟨[(name, formats)], rule.apply product value⟩

/-- A converter with one rule for texts and one for a missing text. -/
def absent (tag : Tag) (product : Product) (present missing : Rule) : Converter m where
  tag := tag
  target := product.typeName
  convert _ value := return ⟨[("Absent", ["<any>"])], present.apply product value⟩
  convertAbsent _ := return ⟨[], missing.apply product ""⟩
  host := none

def observe (r : ConversionRequest m) : m String := do
  let peek ← match r.ambient with
    | none => pure none
    | some ambient =>
      match ← (ambient.get "peek").run with
      | .ok text => pure text
      | .error _ => pure none
  let shown (s : Option String) := s.getD "-"
  let annotations := r.hints.map fun h =>
    ",".intercalate (h.annotations.entries.map fun e => s!"{e.1}:{e.2}")
  let members := [("key", r.key), ("target", r.target.display),
    ("config", toString r.ambient.isSome),
    ("providers", shown (r.ambient.map fun a => toString a.providers.length)),
    ("name", shown (r.hints.bind (·.name))), ("default", shown (r.hints.bind (·.fallback))),
    ("ann", shown annotations), ("formats", toString r.formats.length), ("peek", shown peek)]
  return "|".intercalate (members.map fun e => s!"{e.1}={e.2}")

/-- The answer of a probe: it advertises what it sees, and yields it between two texts unless it is
to decline. -/
def probeReply (yields : Bool) (r : ConversionRequest m) (before after : String) :
    m ConversionReply := do
  let seen ← observe r
  return ⟨[("Probe", ["<probe>", seen])],
    .ok (if yields then some (.text (before ++ seen ++ after)) else none)⟩

/-- A converter that yields what it sees of a conversion, or declines and only advertises it. -/
def probe (tag : Tag) (yields : Bool) : Converter m where
  tag := tag
  target := "String"
  convert r value := probeReply yields r "" s!"|value={value}"
  convertAbsent r := probeReply yields r "absent|" ""
  host := none

end LayeredConfig.Sample

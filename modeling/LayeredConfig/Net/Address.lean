import LayeredConfig.Literal.Integer
import LayeredConfig.Text.Search

/-!
Internet addresses and socket addresses: reading their texts and writing the canonical ones.
-/

namespace LayeredConfig

/-- An internet address: four bytes, or eight groups of sixteen bits. -/
inductive IpAddress
  | v4 (a b c d : Nat)
  | v6 (groups : List Nat)
  deriving DecidableEq, Repr

/-- An address with a port; a sixth-version address may carry a scope. -/
structure SocketAddress where
  address : IpAddress
  scope : Nat
  port : Nat
  deriving DecidableEq, Repr

namespace Net

/-- A reader takes a value from the start of a text and leaves the rest. -/
abbrev Reader (α : Type) := List Char → Option (α × List Char)

def spanDigits (radix : Nat) : List Char → List Nat × List Char
  | [] => ([], [])
  | c :: cs =>
    match Literal.digitValue? radix c with
    | some d =>
      let (ds, rest) := spanDigits radix cs
      (d :: ds, rest)
    | none => ([], c :: cs)

/-- Reads a number up to a bound with at most `width` digits. A further digit after a leading zero
is refused unless `padded`. -/
def readNumber (radix bound width : Nat) (padded : Bool) : Reader Nat := fun s =>
  let (digits, rest) := spanDigits radix s
  let n := digits.foldl (fun n d => n * radix + d) 0
  if digits = [] ∨ width < digits.length ∨ bound < n then none
  else if !padded && digits.head? = some 0 && 1 < digits.length then none
  else some (n, rest)

def readByte : Reader Nat := readNumber 10 255 3 false

def readDotted : Reader (Nat × Nat × Nat × Nat) := fun s => do
  let (a, s) ← readByte s
  let (b, s) ← readByte (← Text.dropPrefix? ['.'] s)
  let (c, s) ← readByte (← Text.dropPrefix? ['.'] s)
  let (d, s) ← readByte (← Text.dropPrefix? ['.'] s)
  return ((a, b, c, d), s)

/-- Reads up to `room` groups with colons between them, as many as there are. A dotted address may
stand for the last two; then nothing follows it, and the flag is set. -/
def readGroups (first : Bool) : Nat → List Char → List Nat × Bool × List Char
  | 0, s => ([], false, s)
  | room + 1, s =>
    let start := if first then some s else Text.dropPrefix? [':'] s
    match (if 0 < room then start.bind readDotted else none) with
    | some ((a, b, c, d), rest) => ([a * 256 + b, c * 256 + d], true, rest)
    | none =>
      match start.bind (readNumber 16 0xFFFF 4 true) with
      | some (g, rest) =>
        let (gs, dotted, rest) := readGroups false room rest
        (g :: gs, dotted, rest)
      | none => ([], false, s)

/-- Reads an address of eight groups, in which a double colon stands for one or more zeros. -/
def readGrouped : Reader (List Nat) := fun s => do
  let (head, dotted, rest) := readGroups true 8 s
  if head.length = 8 then return (head, rest)
  if dotted then none
  let rest ← Text.dropPrefix? [':', ':'] rest
  let (tail, _, rest) := readGroups true (7 - head.length) rest
  return (head ++ List.replicate (8 - head.length - tail.length) 0 ++ tail, rest)

def readAddress : Reader IpAddress := fun s =>
  match readDotted s with
  | some ((a, b, c, d), rest) => some (.v4 a b c d, rest)
  | none => (readGrouped s).map fun (groups, rest) => (.v6 groups, rest)

def readPort : Reader Nat := fun s => do
  readNumber 10 0xFFFF s.length true (← Text.dropPrefix? [':'] s)

/-- Reads a socket address; addresses of groups stand in brackets. -/
def readSocket : Reader SocketAddress := fun s =>
  let dotted := do
    let ((a, b, c, d), s) ← readDotted s
    let (port, s) ← readPort s
    return (SocketAddress.mk (.v4 a b c d) 0 port, s)
  let grouped := do
    let (groups, s) ← readGrouped (← Text.dropPrefix? ['['] s)
    let (scope, s) := match (Text.dropPrefix? ['%'] s).bind (readNumber 10 0xFFFFFFFF s.length true) with
      | some (scope, s) => (scope, s)
      | none => (0, s)
    let (port, s) ← readPort (← Text.dropPrefix? [']'] s)
    return (SocketAddress.mk (.v6 groups) scope port, s)
  dotted.or grouped

def whole {α : Type} (reader : Reader α) (s : List Char) : Option α :=
  match reader s with
  | some (x, []) => some x
  | _ => none

/-- The start and the length of the first longest run of zeros; `position` is the position of the list's
head, `run` counts the zeros before it. -/
def longestZeros (position run : Nat) : List Nat → Nat × Nat
  | [] => (position - run, run)
  | g :: gs =>
    if g = 0 then longestZeros (position + 1) (run + 1) gs
    else
      let (start, length) := longestZeros (position + 1) 0 gs
      if length ≤ run then (position - run, run) else (start, length)

def writeGroups (groups : List Nat) : String :=
  ":".intercalate (groups.map fun g => String.ofList (Nat.toDigits 16 g))

/-- Groups, in which a double colon stands for the first longest run of at least two zeros. -/
def compressed (groups : List Nat) : String :=
  let (start, length) := longestZeros 0 0 groups
  if length < 2 then writeGroups groups
  else writeGroups (groups.take start) ++ "::" ++ writeGroups (groups.drop (start + length))

end Net

/-- The canonical text of an address. An address that embeds one of the fourth version shows it
dotted. -/
def IpAddress.toText : IpAddress → String
  | .v4 a b c d => s!"{a}.{b}.{c}.{d}"
  | .v6 [0, 0, 0, 0, 0, 0xFFFF, g, h] => s!"::ffff:{g / 256}.{g % 256}.{h / 256}.{h % 256}"
  | .v6 groups => Net.compressed groups

def SocketAddress.toText (s : SocketAddress) : String :=
  match s.address with
  | .v4 .. => s!"{s.address.toText}:{s.port}"
  | .v6 _ =>
    let scope := if s.scope = 0 then "" else s!"%{s.scope}"
    s!"[{s.address.toText}{scope}]:{s.port}"

def readIpAddress (s : List Char) : Except LiteralFault IpAddress :=
  match Net.whole Net.readAddress s with
  | some a => .ok a
  | none => .error .badIpAddress

def readSocketAddress (s : List Char) : Except LiteralFault SocketAddress :=
  match Net.whole Net.readSocket s with
  | some a => .ok a
  | none => .error .badSocketAddress

end LayeredConfig

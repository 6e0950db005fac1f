import LayeredConfig.Value

/-!
What texts denote values of the standard types. A reader answers with a value, with nothing if the
text is of no form it knows, or with a fault. All of them but the reader of characters in quotes
pass over white space at both ends.
-/

namespace LayeredConfig.Literal

def folded (s : List Char) : String := String.ofList (s.map Text.asciiLower)

def readBoolean (s : List Char) : Option Bool :=
  let word := folded (Text.trim s)
  if ["true", "yes", "1", "on"].contains word then some true
  else if ["false", "no", "0", "off"].contains word then some false
  else none

def hexDigits? : List Char → Option (List Char)
  | '0' :: 'x' :: rest | '0' :: 'X' :: rest | '#' :: rest => some rest
  | _ => none

/-- Reads an integer without white space around it: a bound by its name, or digits after an
optional sign, hexadecimal ones after a mark between sign and digits. -/
def readTrimmedInteger (kind : IntegerKind) (s : List Char) : Except LiteralFault Int :=
  if folded s = "min" then .ok kind.lo
  else if folded s = "max" then .ok kind.hi
  else
    let (sign, unsigned) := match s with
      | '-' :: rest => (['-'], rest)
      | '+' :: rest => ([], rest)
      | rest => ([], rest)
    match hexDigits? unsigned with
    | some digits => readInteger 16 kind.lo kind.hi (sign ++ digits)
    | none => readInteger 10 kind.lo kind.hi s

def readIntegerOf (kind : IntegerKind) (s : List Char) : Except LiteralFault Int :=
  readTrimmedInteger kind (Text.trim s)

/-- Reads a floating-point number, or the largest finite one and its negative by their names. -/
def readFloatOf (width : FloatWidth) (s : List Char) : Except LiteralFault FloatNumber :=
  let s := Text.trim s
  if folded s = "min" then .ok (.bits (width.largestBits + width.signBit))
  else if folded s = "max" then .ok (.bits width.largestBits)
  else readFloat width s

def unquote? : List Char → Option (List Char)
  | '\'' :: rest => if rest.getLast? = some '\'' then some rest.dropLast else none
  | _ => none

def readCharacter (s : List Char) : Option Char :=
  let inner := match unquote? s with
    | some (c :: cs) => c :: cs
    | _ => Text.trim s
  match inner with
  | [c] => some c
  | _ => none

def readPath (s : List Char) : Option String :=
  match Text.trim s with
  | [] => none
  | path => some (String.ofList path)

def dropSuffix? (suffix s : List Char) : Option (List Char) :=
  (Text.dropPrefix? suffix.reverse s.reverse).map List.reverse

/-- Splits off the unit of a duration: the amount's text, and the milliseconds of the unit. -/
def splitUnit (s : List Char) : List Char × Nat :=
  match dropSuffix? ['m', 's'] s, dropSuffix? ['s'] s, dropSuffix? ['m'] s, dropSuffix? ['h'] s with
  | some amount, _, _, _ => (amount, 1)
  | none, some amount, _, _ => (amount, 1000)
  | none, none, some amount, _ => (amount, 60000)
  | none, none, none, some amount => (amount, 3600000)
  | none, none, none, none => (s, 1)

def durationLimit : Nat := IntegerKind.u64.hi.toNat

def readDuration (s : List Char) : Except LiteralFault Nat := do
  let s := Text.trim s
  let (amount, unit) := splitUnit s
  let n ← readNatural 10 durationLimit (Text.trim amount)
  if n * unit ≤ durationLimit then return n * unit
  else throw (.durationOverflow (String.ofList s))

def readIpAddressOf (s : List Char) : Except LiteralFault IpAddress := readIpAddress (Text.trim s)

def readSocketAddressOf (s : List Char) : Except LiteralFault SocketAddress :=
  readSocketAddress (Text.trim s)

def readUrlOf (s : List Char) : Except LiteralFault Url :=
  match Url.parse (Text.trim s) with
  | .ok u => .ok u
  | .error f => .error (.url f)

end LayeredConfig.Literal

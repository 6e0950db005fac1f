import LayeredConfig.Format.Fault
import LayeredConfig.KeyMap
import LayeredConfig.Literal.Integer
import LayeredConfig.Text.Blank

/-!
Flat documents: lines of a key, a separator and a value. A line whose first character that is no
blank is `#` or `!` is a comment. A line that ends in an odd number of backslashes continues on the
next one. A document is read in the stages physical lines, logical lines, pairs of key part and
value part, decoded entries.
-/

namespace LayeredConfig.Format.Flat

/-- Drops the carriage return that belongs to a line feed. -/
def dropReturn (line : List Char) : List Char :=
  if line.getLast? = some '\r' then line.dropLast else line

/-- The lines of a text. A line ends at a line feed, which may follow a carriage return; after the
last line feed a line starts only if there is text. -/
def physicalLines (s : List Char) : List (List Char) := go [] s
where
  go (line : List Char) : List Char → List (List Char)
    | [] => if line = [] then [] else [line.reverse]
    | c :: cs => if c = '\n' then dropReturn line.reverse :: go [] cs else go (c :: line) cs

def dropBlanks (s : List Char) : List Char := s.dropWhile Text.isBlank

/-- An entry's text without line breaks, and the number of its first line, from one. -/
structure LogicalLine where
  number : Nat
  text : List Char
  deriving DecidableEq

/-- Whether a line ends in an odd number of backslashes. -/
def continues (line : List Char) : Bool := (line.reverse.takeWhile (· = '\\')).length % 2 = 1

/-- Whether a line without leading blanks holds no entry. -/
def isIgnored : List Char → Bool
  | [] => true
  | c :: _ => c = '#' || c = '!'

/-- Joins lines to logical lines. `number` is the number of the next line; `unfinished` holds the
logical line that it continues, without the backslash. -/
def logicalLines (number : Nat) (unfinished : Option LogicalLine) :
    List (List Char) → List LogicalLine
  | [] => unfinished.toList
  | line :: rest =>
    let line := dropBlanks line
    if unfinished = none ∧ isIgnored line then logicalLines (number + 1) none rest
    else
      let joined : LogicalLine := match unfinished with
        | some l => { l with text := l.text ++ line }
        | none => ⟨number, line⟩
      if continues joined.text then
        logicalLines (number + 1) (some { joined with text := joined.text.dropLast }) rest
      else joined :: logicalLines (number + 1) none rest

/-- What follows the blank that ends a key: more blanks, then at most one sign and its blanks. -/
def afterBlank (s : List Char) : List Char :=
  match dropBlanks s with
  | '=' :: rest | ':' :: rest => dropBlanks rest
  | rest => rest

/-- Splits a logical line at its first separator that no backslash escapes. -/
def splitEntry : List Char → List Char × List Char
  | [] => ([], [])
  | ['\\'] => (['\\'], [])
  | '\\' :: c :: rest =>
    let (key, value) := splitEntry rest
    ('\\' :: c :: key, value)
  | c :: rest =>
    if c = '=' ∨ c = ':' then ([], dropBlanks rest)
    else if Text.isBlank c then ([], afterBlank rest)
    else
      let (key, value) := splitEntry rest
      (c :: key, value)

/-- The character with a code given by four digits; the first of them may be a plus sign. -/
def characterOf (digits : List Char) : Except EscapeFault Char :=
  match Literal.readNatural 16 0xFFFF digits with
  | .ok code =>
    if digits.length ≠ 4 then .error (.malformed digits)
    else if code.isValidChar then .ok (Char.ofNat code)
    else .error (.noCharacter digits)
  | .error _ => .error (.malformed digits)

/-- Decodes the escapes of a part. A backslash at the very end stands for nothing. -/
def unescape : List Char → Except EscapeFault (List Char)
  | [] => .ok []
  | ['\\'] => .ok []
  | '\\' :: 'u' :: rest => do
    let c ← characterOf (rest.take 4)
    return c :: (← unescape (rest.drop 4))
  | '\\' :: c :: rest => do
    let decoded := match c with
      | 't' => '\t'
      | 'n' => '\n'
      | 'r' => '\r'
      | 'f' => '\x0c'
      | other => other
    return decoded :: (← unescape rest)
  | c :: rest => return c :: (← unescape rest)
termination_by s => s.length
decreasing_by all_goals simp_wf; try omega

/-- Encodes a character. Blanks are escaped in keys and at the start of values, and the signs that
could end a key or start a comment are escaped in keys. -/
def escapeChar (isKey isFirst : Bool) (c : Char) : List Char :=
  if c = '\\' then ['\\', '\\']
  else if c = '\t' then ['\\', 't']
  else if c = '\n' then ['\\', 'n']
  else if c = '\r' then ['\\', 'r']
  else if c = '\x0c' then ['\\', 'f']
  else if c = ' ' ∧ (isKey ∨ isFirst) then ['\\', ' ']
  else if isKey ∧ (c = '=' ∨ c = ':' ∨ c = '#' ∨ c = '!') then ['\\', c]
  else [c]

def escapeKey (s : List Char) : List Char := s.flatMap (escapeChar true false)

def escapeValue : List Char → List Char
  | [] => []
  | c :: cs => escapeChar false true c ++ cs.flatMap (escapeChar false false)

def readEntry (line : LogicalLine) : Except DocumentFault (String × String) :=
  let (key, value) := splitEntry line.text
  match unescape key, unescape value with
  | .ok key, .ok value => .ok (String.ofList key, String.ofList value)
  | .error f, _ | _, .error f => .error (.line line.number f)

def readEntries : List LogicalLine → Except DocumentFault (List (String × String))
  | [] => .ok []
  | line :: rest => do
    let entry ← readEntry line
    return entry :: (← readEntries rest)

/-- The entries of a document in the order in which they are written. -/
def entriesOf (text : List Char) : Except DocumentFault (List (String × String)) :=
  readEntries (logicalLines 1 none (physicalLines text))

/-- Reads a document; the last entry with a key counts. -/
def parse (text : String) : Except DocumentFault (KeyMap String) :=
  return .ofList (← entriesOf text.toList)

def renderEntry (key value : String) : List Char :=
  escapeKey key.toList ++ '=' :: escapeValue value.toList ++ ['\n']

def renderEntries (entries : List (String × String)) : List Char :=
  entries.flatMap fun e => renderEntry e.1 e.2

def render (m : KeyMap String) : String := String.ofList (renderEntries m.entries)

end LayeredConfig.Format.Flat

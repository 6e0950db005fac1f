import LayeredConfig.Pattern.Regex
import LayeredConfig.Literal.Integer

/-!
Reading regular expressions. A reader takes what it reads from the start of a text and leaves the
rest, or refuses. `fuel` bounds the steps by the length of the text.
-/

namespace LayeredConfig.Pattern.Syntax

/-- What the flags of a group turn on. -/
structure Flags where
  ignoreCase : Bool
  multiLine : Bool
  dotAll : Bool
  extended : Bool
  crlf : Bool
  unicode : Bool

def Flags.initial : Flags := ⟨false, false, false, false, false, true⟩

/-- An escape outside and inside brackets. -/
inductive Escape
  | literal (c : Char)
  | set (s : CharSet)
  | look (l : Look)

/-- A part of a concatenation. A question mark behind a counted repetition still belongs to it. Flags
that are set amid the parts cannot be repeated. -/
inductive Item
  | node (r : Regex)
  | counted (r : Regex)
  | directive

def Item.regex? : Item → Option Regex
  | .node r => some r
  | .counted r => some r
  | .directive => none

def Item.isCounted : Item → Bool
  | .counted _ => true
  | _ => false

def prepend (r : Regex) (item : Item) : Regex :=
  match item.regex?, r with
  | none, r => r
  | some a, .empty => a
  | some a, r => .cat a r

/-- The concatenation of parts, last part first. -/
def concat (parts : List Item) : Regex := parts.foldl prepend .empty

/-- The alternatives of a group, last one first; there is at least the one given on its own. -/
def alternatives (last : Regex) (earlier : List Regex) : Regex :=
  earlier.foldl (fun r a => .alt a r) last

/-- The rest after white space and comments; `comment` says whether a comment is open. -/
def skipBlanks (comment : Bool) : List Char → List Char
  | [] => []
  | c :: cs =>
    if comment then skipBlanks (c ≠ '\n') cs
    else if c = '#' then skipBlanks true cs
    else if Text.isWhite c then skipBlanks false cs
    else c :: cs

/-- The rest after white space and comments, if the flags skip them. -/
def skipSpace (flags : Flags) (s : List Char) : List Char :=
  if flags.extended then skipBlanks false s else s

/-- The characters of a kind that a text starts with, and the rest. If blanks are skipped, those before,
between and behind the characters are; `comment` says whether a comment is open. -/
def spanSpaced (extended : Bool) (kind : Char → Bool) (comment : Bool) :
    List Char → List Char × List Char
  | [] => ([], [])
  | c :: cs =>
    if comment then spanSpaced extended kind (c ≠ '\n') cs
    else if extended && c = '#' then spanSpaced extended kind true cs
    else if extended && Text.isWhite c then spanSpaced extended kind false cs
    else if kind c then
      let (taken, rest) := spanSpaced extended kind false cs
      (c :: taken, rest)
    else ([], c :: cs)

/-- So many characters, and the rest. If blanks are skipped, those before and between them are. -/
def takeSpaced (flags : Flags) : Nat → List Char → Option (List Char × List Char)
  | 0, s => some ([], s)
  | n + 1, s =>
    match skipSpace flags s with
    | [] => none
    | c :: rest => (takeSpaced flags n rest).map fun (taken, rest) => (c :: taken, rest)

def character? (n : Nat) : Option Char := if n.isValidChar then some (Char.ofNat n) else none

def hexCharacter? (digits : List Char) : Option Char :=
  if digits.all (fun c => (Literal.digitValue? 16 c).isSome) then do
    character? (← (Literal.readNatural 16 0xFFFFFFFF digits).toOption)
  else none

def readBracedHex (flags : Flags) (s : List Char) : Option (Char × List Char) :=
  match spanSpaced flags.extended (· ≠ '\x7d') false s with
  | (digits, _ :: rest) => (hexCharacter? digits).map (·, rest)
  | (_, []) => none

/-- Exactly `width` hexadecimal digits. Without Unicode, two of them stand for a byte, which is a
character in ASCII only. -/
def readBareHex (flags : Flags) (width : Nat) (s : List Char) : Option (Char × List Char) := do
  let (digits, rest) ← takeSpaced flags width s
  let c ← hexCharacter? digits
  if flags.unicode || width ≠ 2 || c.toNat < 0x80 then some (c, rest) else none

def readHex (flags : Flags) (width : Nat) (s : List Char) : Option (Char × List Char) :=
  match skipSpace flags s with
  | '\x7b' :: rest => readBracedHex flags rest
  | _ => readBareHex flags width s

def isBoundaryChar (c : Char) : Bool := c.isAlpha || c = '-'

def edge? (name : List Char) : Option Edge :=
  match String.ofList name with
  | "start" => some .start
  | "end" => some .finish
  | "start-half" => some .startHalf
  | "end-half" => some .finishHalf
  | _ => none

/-- The edge after the mark of a word boundary: what a name in braces says. Braces around anything
else are left for a repetition. -/
def readBoundary : List Char → Option (Edge × List Char)
  | '\x7b' :: c :: rest =>
    if isBoundaryChar c then
      match (c :: rest).dropWhile isBoundaryChar with
      | '\x7d' :: after => (edge? ((c :: rest).takeWhile isBoundaryChar)).map (·, after)
      | _ => none
    else some (.boundary, '\x7b' :: c :: rest)
  | s => some (.boundary, s)

/-- The set of the characters that are not in another one. Without Unicode it is a set of bytes, and
not one of characters. -/
def others? (flags : Flags) (s : CharSet) : Option Escape :=
  if flags.unicode then some (.set (.complement s)) else none

def escape? (flags : Flags) (c : Char) : Option Escape :=
  match c with
  | 'd' => some (.set (.digits flags.unicode))
  | 'D' => others? flags (.digits true)
  | 's' => some (.set (.space flags.unicode))
  | 'S' => others? flags (.space true)
  | 'w' => some (.set (.word flags.unicode))
  | 'W' => others? flags (.word true)
  | 'a' => some (.literal '\x07')
  | 'f' => some (.literal '\x0c')
  | 't' => some (.literal '\t')
  | 'n' => some (.literal '\n')
  | 'r' => some (.literal '\r')
  | 'v' => some (.literal '\x0b')
  | 'A' => some (.look .textStart)
  | 'z' => some (.look .textEnd)
  | 'B' => some (.look (.word flags.unicode .noBoundary))
  | '<' => some (.look (.word flags.unicode .start))
  | '>' => some (.look (.word flags.unicode .finish))
  | c => if c.toNat < 0x80 ∧ !c.isAlphanum then some (.literal c) else none

/-- How many digits an escape by number has outside of braces. -/
def hexWidth? : Char → Option Nat
  | 'x' => some 2
  | 'u' => some 4
  | 'U' => some 8
  | _ => none

def readEscape (flags : Flags) : List Char → Option (Escape × List Char)
  | [] => none
  | c :: rest =>
    match hexWidth? c with
    | some width => (readHex flags width rest).map fun (c, rest) => (.literal c, rest)
    | none =>
      if c = 'b' then
        (readBoundary rest).map fun (edge, rest) => (.look (.word flags.unicode edge), rest)
      else (escape? flags c).map (·, rest)

def inCase (flags : Flags) (s : CharSet) : CharSet :=
  if flags.ignoreCase then .anyCase flags.unicode s else s

/-- The name of an ASCII class, up to its colon and closing bracket. -/
def readClassName (s : List Char) : Option (CharSet × List Char) :=
  match s.dropWhile (· ≠ ':') with
  | ':' :: ']' :: after =>
    (CharSet.named? (String.ofList (s.takeWhile (· ≠ ':')))).map (·, after)
  | _ => none

/-- A named ASCII class between `[:` and `:]`. -/
def readNamed : List Char → Option (CharSet × List Char)
  | '[' :: ':' :: '^' :: rest =>
    (readClassName rest).map fun (set, rest) => (.complement set, rest)
  | '[' :: ':' :: rest => readClassName rest
  | _ => none

/-- A character as an item of a set. Without Unicode it is one of ASCII. -/
def setCharacter? (flags : Flags) (c : Char) : Option (Char ⊕ CharSet) :=
  if flags.unicode || c.toNat < 0x80 then some (.inl c) else none

/-- One item of a set: a character, or a set that an escape names. -/
def readSetItem (flags : Flags) : List Char → Option ((Char ⊕ CharSet) × List Char)
  | [] => none
  | '\\' :: rest =>
    match readEscape flags rest with
    | some (.literal c, rest) => (setCharacter? flags c).map (·, rest)
    | some (.set s, rest) => some (.inr s, rest)
    | _ => none
  | c :: rest => (setCharacter? flags c).map (·, rest)

def itemSet : Char ⊕ CharSet → CharSet
  | .inl c => .single c
  | .inr s => s

/-- The characters between two; nothing else makes a range. -/
def range? : Char ⊕ CharSet → Char ⊕ CharSet → Option CharSet
  | .inl a, .inl b => if a ≤ b then some (.ranges [(a.toNat, b.toNat)]) else none
  | _, _ => none

/-- Whether a hyphen before a text makes no range: it ends a set or starts a difference. -/
def isRangeless (s : List Char) : Bool := s.head? = some ']' || s.head? = some '-'

def readRange (flags : Flags) (s : List Char) : Option (CharSet × List Char) := do
  let (first, rest) ← readSetItem flags s
  match skipSpace flags rest with
  | [] => none
  | d :: after =>
    if d ≠ '-' || isRangeless (skipSpace flags after) then some (itemSet first, d :: after)
    else do
      let (second, rest) ← readSetItem flags (skipSpace flags after)
      return (← range? first second, rest)

/-- The hyphens, and else one closing bracket, that stand for themselves at the start of a set. -/
def readOpening (flags : Flags) (s : List Char) : CharSet × List Char :=
  let rec hyphens (fuel : Nat) (acc : CharSet) (s : List Char) : CharSet × List Char :=
    match fuel, skipSpace flags s with
    | fuel + 1, '-' :: rest => hyphens fuel (.union acc (.single '-')) rest
    | _, s => (acc, s)
  match hyphens s.length .nothing s with
  | (.ranges [], ']' :: rest) => (.single ']', rest)
  | r => r

def readNegation (flags : Flags) (s : List Char) : Bool × List Char :=
  match skipSpace flags s with
  | '^' :: rest => (true, rest)
  | rest => (false, rest)

def readOperation : List Char → Option ((CharSet → CharSet → CharSet) × List Char)
  | '&' :: '&' :: rest => some (.intersection, rest)
  | '-' :: '-' :: rest => some (.difference, rest)
  | '~' :: '~' :: rest => some (.symmetricDifference, rest)
  | _ => none

def readPart (flags : Flags) (nested : List Char → Option (CharSet × List Char)) (c : Char)
    (rest : List Char) : Option (CharSet × List Char) :=
  match readNamed (c :: rest) with
  | some named => some named
  | none => if c = '[' then nested rest else readRange flags (c :: rest)

/-- A set that has been read. Without Unicode it has characters of ASCII only; the set says the same of
all other characters then. -/
def bounded? (flags : Flags) (s : CharSet) : Option CharSet :=
  if flags.unicode || !s.holds 0x80 then some s else none

/-- An operation between sets, with its left operand. -/
abbrev Pending := CharSet → CharSet

mutual

def readSet (fuel : Nat) (flags : Flags) (s : List Char) : Option (CharSet × List Char) :=
  match fuel with
  | 0 => none
  | fuel + 1 =>
    let (negated, s) := readNegation flags s
    let (start, s) := readOpening flags s
    (readSetRest fuel flags id start s).bind fun (set, rest) =>
      (bounded? flags (if negated then .complement set else set)).map (·, rest)

/-- Reads the items of a set up to its closing bracket; `acc` holds those since the last
operation. -/
def readSetRest (fuel : Nat) (flags : Flags) (pending : Pending) (acc : CharSet) (s : List Char) :
    Option (CharSet × List Char) :=
  match fuel with
  | 0 => none
  | fuel + 1 =>
    let left := pending (inCase flags acc)
    match skipSpace flags s with
    | [] => none
    | c :: rest =>
      if c = ']' then some (left, rest)
      else match readOperation (c :: rest) with
        | some (operation, rest) => readSetRest fuel flags (operation left) .nothing rest
        | none =>
          match readPart flags (readSet fuel flags) c rest with
          | some (set, rest) => readSetRest fuel flags pending (.union acc set) rest
          | none => none

end

def readCount (flags : Flags) (s : List Char) : Option Nat × List Char :=
  let (digits, rest) :=
    spanSpaced flags.extended Char.isDigit false (s.dropWhile Text.isWhite)
  ((Literal.readNatural 10 0xFFFFFFFF digits).toOption, rest.dropWhile Text.isWhite)

/-- The upper bound of a repetition after a comma; there may be none. -/
def readUpper (flags : Flags) (low : Nat) (s : List Char) :
    Option ((Nat × Option Nat) × List Char) :=
  match skipSpace flags s with
  | '\x7d' :: rest => some ((low, none), rest)
  | _ =>
    match readCount flags s with
    | (some high, '\x7d' :: rest) => if low ≤ high then some ((low, some high), rest) else none
    | _ => none

def readBounds (flags : Flags) (s : List Char) : Option ((Nat × Option Nat) × List Char) :=
  match readCount flags s with
  | (some low, '\x7d' :: rest) => some ((low, some low), rest)
  | (some low, ',' :: rest) => readUpper flags low rest
  | _ => none

def quantity? : Char → Option (Nat × Option Nat)
  | '*' => some (0, none)
  | '+' => some (1, none)
  | '?' => some (0, some 1)
  | _ => none

/-- A question mark right behind a repetition makes no difference to what is matched. -/
def skipPreference : List Char → List Char
  | '?' :: rest => rest
  | s => s

/-- The repetition of the part before: by one character, or counted. -/
def readRepetition (flags : Flags) (last : Item) (r : Regex) : List Char → Option (Item × List Char)
  | [] => none
  | c :: rest =>
    if last.isCounted && c = '?' then some (.node r, rest)
    else match quantity? c with
      | some (low, high) => some (.node (.repeat low high r), skipPreference rest)
      | none =>
        if c = '\x7b' then
          (readBounds flags rest).map fun ((low, high), rest) =>
            (.counted (.repeat low high r), rest)
        else none

def isRepetition (c : Char) : Bool := ['*', '+', '?', '\x7b'].contains c

def setFlag (flags : Flags) (on : Bool) : Char → Option Flags
  | 'i' => some { flags with ignoreCase := on }
  | 'm' => some { flags with multiLine := on }
  | 's' => some { flags with dotAll := on }
  | 'x' => some { flags with extended := on }
  | 'R' => some { flags with crlf := on }
  | 'u' => some { flags with unicode := on }
  | 'U' => some flags
  | _ => none

/-- Reads flags up to a colon or a closing bracket, which stays; `seen` holds the flags so far. No
flag stands twice, and a minus sign stands once, before a flag. -/
def readFlags (flags : Flags) (on : Bool) (seen : List Char) :
    List Char → Option (Flags × List Char)
  | [] => none
  | c :: rest =>
    if c = ':' ∨ c = ')' then
      if seen.head? = some '-' ∨ (c = ')' ∧ seen = []) then none else some (flags, c :: rest)
    else if seen.contains c then none
    else if c = '-' then readFlags flags false (c :: seen) rest
    else do readFlags (← setFlag flags on c) on (c :: seen) rest

def isNameChar (first : Bool) (c : Char) : Bool :=
  if c = '_' then true
  else if first then isWordChar true c && !(CharSet.digits true).holds c.toNat
  else isWordChar true c || ['.', '[', ']'].contains c

def readName (s : List Char) : Option (List Char × List Char) :=
  match s.takeWhile (· ≠ '>'), s.dropWhile (· ≠ '>') with
  | c :: cs, _ :: rest =>
    if isNameChar true c && cs.all (isNameChar false) then some (c :: cs, rest) else none
  | _, _ => none

/-- What follows an opening parenthesis: the flags and the name of a group, or flags that are set
for the rest of the group around it. -/
inductive GroupHead
  | group (flags : Flags) (name : Option (List Char))
  | directive (flags : Flags)

/-- Whether a condition on the text before or behind follows a question mark. There are none. -/
def isLookAround (s : List Char) : Bool :=
  [['='], ['!'], ['<', '='], ['<', '!']].any (·.isPrefixOf s)

def afterNameMark? (s : List Char) : Option (List Char) :=
  if ['P', '<'].isPrefixOf s then some (s.drop 2)
  else if ['<'].isPrefixOf s then some (s.drop 1)
  else none

def readHead (flags : Flags) : List Char → Option (GroupHead × List Char)
  | '?' :: s =>
    if isLookAround s then none
    else match afterNameMark? s with
      | some s => (readName s).map fun (name, rest) => (.group flags (some name), rest)
      | none =>
        match readFlags flags true [] s with
        | some (inner, ':' :: rest) => some (.group inner none, rest)
        | some (inner, _ :: rest) => some (.directive inner, rest)
        | _ => none
  | s => some (.group flags none, s)

def escapedAtom (flags : Flags) : Escape → Regex
  | .literal c => .set (inCase flags (.single c))
  | .set s => .set s
  | .look l => .look l

def atom? (flags : Flags) (c : Char) : Option Regex :=
  match c with
  | '.' =>
    if !flags.unicode then none
    else if flags.dotAll then some (.set .anything)
    else if flags.crlf then some (.set (.difference .notLineFeed (.single '\r')))
    else some (.set .notLineFeed)
  | '^' => some (.look (if flags.multiLine then .lineStart flags.crlf else .textStart))
  | '$' => some (.look (if flags.multiLine then .lineEnd flags.crlf else .textEnd))
  | c => some (.set (inCase flags (.single c)))

/-- Reads an expression that is no group, set, repetition or bar. -/
def readAtom (flags : Flags) : List Char → Option (Regex × List Char)
  | [] => none
  | c :: rest =>
    if c = '\\' then (readEscape flags rest).map fun (e, rest) => (escapedAtom flags e, rest)
    else (atom? flags c).map (·, rest)

/-- What has been read of a group: the flags in force, the current alternative, those before it,
and the names of the groups so far. Parts and alternatives stand last one first. -/
structure Progress where
  flags : Flags
  parts : List Item
  earlier : List Regex
  names : List (List Char)

namespace Progress

def start (flags : Flags) (names : List (List Char)) : Progress := ⟨flags, [], [], names⟩

def push (g : Progress) (r : Regex) : Progress := { g with parts := .node r :: g.parts }

def regex (g : Progress) : Regex := alternatives (concat g.parts) g.earlier

end Progress

/-- One step into a group from a character that does not end it: a bar, a group of its own, flags, a
set, a repetition of the part before, or an atom. `nested` reads the groups in it. -/
def readStep (nested : Progress → List Char → Option (Progress × List Char)) (g : Progress)
    (c : Char) (rest : List Char) : Option (Progress × List Char) :=
  if c = '|' then some ({ g with parts := [], earlier := concat g.parts :: g.earlier }, rest)
  else if c = '(' then
    match readHead g.flags (skipSpace g.flags rest) with
    | none => none
    | some (.directive flags, rest) => some ({ g with flags, parts := .directive :: g.parts }, rest)
    | some (.group flags name, rest) =>
      if name.any g.names.contains then none
      else match nested (.start flags (name.toList ++ g.names)) rest with
        | some (inner, ')' :: rest) => some ({ g.push inner.regex with names := inner.names }, rest)
        | _ => none
  else if c = '[' then
    (readSet (2 * rest.length + 2) g.flags rest).map fun (set, rest) => (g.push (.set set), rest)
  else if isRepetition c then
    match g.parts with
    | [] => none
    | last :: parts =>
      last.regex?.bind fun r =>
        (readRepetition g.flags last r (c :: rest)).map fun (item, rest) =>
          ({ g with parts := item :: parts }, rest)
  else (readAtom g.flags (c :: rest)).map fun (r, rest) => (g.push r, rest)

/-- Reads a group up to its end: a closing parenthesis, which stays, or the end of the text. -/
def readGroup (fuel : Nat) (g : Progress) (s : List Char) : Option (Progress × List Char) :=
  match fuel with
  | 0 => none
  | fuel + 1 =>
    match skipSpace g.flags s with
    | [] => some (g, [])
    | c :: rest =>
      if c = ')' then some (g, c :: rest)
      else match readStep (readGroup fuel) g c rest with
        | some (g, rest) => readGroup fuel g rest
        | none => none

def read? (s : List Char) : Option Regex :=
  match readGroup (s.length + 1) (.start .initial []) s with
  | some (g, []) => some g.regex
  | _ => none

end LayeredConfig.Pattern.Syntax

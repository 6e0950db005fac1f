import LayeredConfig.Format.Fault
import LayeredConfig.KeyMap
import LayeredConfig.Literal.Integer
import LayeredConfig.Text.Blank
import LayeredConfig.Text.Search

/-!
XML documents: a `properties` element with an `entry` element for each entry, whose key is an
attribute and whose value is the content. Comments are removed first; then the body of the root is
searched for entries one after another.
-/

namespace LayeredConfig.Format.Xml

open Text (splitFirst? splitLast? dropPrefix?)

theorem length_le_of_splitFirst? {marker s a b : List Char}
    (h : splitFirst? marker s = some (a, b)) : b.length + marker.length ≤ s.length := by
  rw [Text.eq_append_of_splitFirst? h]
  simp only [List.length_append]
  omega

/-- Removes the comments. The sign that ends a comment is searched from the comment's first
character on. -/
def stripComments (s : List Char) : Except MarkupFault (List Char) :=
  match _h : splitFirst? "<!--".toList s with
  | none => .ok s
  | some (before, after) =>
    match _h' : splitFirst? "-->".toList ("<!--".toList ++ after) with
    | none => .error .openComment
    | some (_, rest) => do
      return before ++ (← stripComments rest)
termination_by s.length
decreasing_by
  have h1 := length_le_of_splitFirst? _h
  have h2 := length_le_of_splitFirst? _h'
  simp only [List.length_append] at h2
  have e1 : "<!--".toList.length = 4 := by decide
  have e2 : "-->".toList.length = 3 := by decide
  omega

def rootBody (s : List Char) : Except MarkupFault (List Char) :=
  match splitFirst? "<properties".toList s with
  | none => .error .noRoot
  | some (_, after) =>
    match splitFirst? ['>'] after with
    | none => .error .openRootTag
    | some (tag, body) =>
      if tag.getLast? = some '/' then .ok []
      else match splitLast? "</properties>".toList body with
        | none => .error .openRoot
        | some (content, _) => .ok content

def characterNamed (name : List Char) : Option Char :=
  if name = "amp".toList then some '&'
  else if name = "lt".toList then some '<'
  else if name = "gt".toList then some '>'
  else if name = "quot".toList then some '"'
  else if name = "apos".toList then some '\''
  else
    let code := match dropPrefix? ['#', 'x'] name, dropPrefix? ['#'] name with
      | some digits, _ => (Literal.readNatural 16 0xFFFFFFFF digits).toOption
      | none, some digits => (Literal.readNatural 10 0xFFFFFFFF digits).toOption
      | none, none => none
    code.bind fun n => if n.isValidChar then some (Char.ofNat n) else none

def unescape (s : List Char) : Except MarkupFault (List Char) :=
  match _h : splitFirst? ['&'] s with
  | none => .ok s
  | some (before, after) =>
    match _h' : splitFirst? [';'] after with
    | none => .error .openReference
    | some (name, rest) =>
      match characterNamed name with
      | none => .error (.unknownReference name)
      | some c => do return before ++ c :: (← unescape rest)
termination_by s.length
decreasing_by
  have h1 := length_le_of_splitFirst? _h
  have h2 := length_le_of_splitFirst? _h'
  simp only [List.length_cons, List.length_nil] at h1 h2
  omega

def isControl (c : Char) : Bool := c.toNat < 0x20 || (0x7F ≤ c.toNat && c.toNat ≤ 0x9F)

/-- Encodes a character: markup signs by name, and control characters but line feeds and tabs by
number. -/
def escapeChar (c : Char) : List Char :=
  if c = '&' then "&amp;".toList
  else if c = '<' then "&lt;".toList
  else if c = '>' then "&gt;".toList
  else if c = '"' then "&quot;".toList
  else if c = '\'' then "&apos;".toList
  else if isControl c ∧ c ≠ '\n' ∧ c ≠ '\t' then
    "&#x".toList ++ Nat.toDigits 16 c.toNat ++ [';']
  else [c]

def escape (s : List Char) : List Char := s.flatMap escapeChar

def quotedValue? : List Char → Option (List Char)
  | q :: rest => if q = '"' ∨ q = '\'' then (splitFirst? [q] rest).map (·.1) else none
  | [] => none

/-- The value of the attribute `key`: the first place where the name starts the text or follows
white space, and an equals sign follows it. -/
def keyAttribute? (s : List Char) : Option (List Char) :=
  match _h : splitFirst? "key".toList s with
  | none => none
  | some (before, after) =>
    match before.getLast?.all Text.isWhite, after.dropWhile Text.isWhite with
    | true, '=' :: value => quotedValue? (value.dropWhile Text.isWhite)
    | _, _ => keyAttribute? after
termination_by s.length
decreasing_by
  all_goals
    have h1 := length_le_of_splitFirst? _h
    have e1 : "key".toList.length = 3 := by decide
    omega

def endsName : Option Char → Bool
  | some c => [' ', '\t', '\r', '\n', '/', '>'].contains c
  | none => false

/-- The entries of a body in the order in which they are written. -/
def bodyEntries (s : List Char) : Except MarkupFault (List (String × String)) :=
  match _h : splitFirst? "<entry".toList s with
  | none => .ok []
  | some (_, afterName) =>
    if endsName afterName.head? then
      match _h' : splitFirst? ['>'] afterName with
      | none => .error .openEntryTag
      | some (tag, afterTag) =>
        match keyAttribute? (Text.dropEndWhile (· = '/') tag) with
        | none => .error .noKey
        | some rawKey => do
          let key ← unescape rawKey
          if tag.getLast? = some '/' then
            return (String.ofList key, "") :: (← bodyEntries afterTag)
          else
            match _h'' : splitFirst? "</entry>".toList afterTag with
            | none => .error (.openEntry key)
            | some (content, rest) => do
              let value ← unescape content
              return (String.ofList key, String.ofList value) :: (← bodyEntries rest)
    else bodyEntries afterName
termination_by s.length
decreasing_by
  all_goals
    have h1 := length_le_of_splitFirst? _h
    have e1 : "<entry".toList.length = 6 := by decide
    try have h2 := length_le_of_splitFirst? _h'
    try have h3 := length_le_of_splitFirst? _h''
    omega

/-- The entries of a document in the order in which they are written. -/
def entriesOf (text : List Char) : Except MarkupFault (List (String × String)) := do
  bodyEntries (← rootBody (← stripComments text))

/-- Reads a document; the last entry with a key counts. -/
def parse (text : String) : Except DocumentFault (KeyMap String) :=
  match entriesOf text.toList with
  | .ok entries => .ok (.ofList entries)
  | .error f => .error (.markup f)

def opening : List Char :=
  "<?xml version=\"1.0\" encoding=\"UTF-8\"?>\n<properties>\n".toList

def closing : List Char := "</properties>\n".toList

def renderEntry (key value : String) : List Char :=
  "  <entry key=\"".toList ++ escape key.toList ++ "\">".toList ++ escape value.toList ++
    "</entry>\n".toList

def renderEntries (entries : List (String × String)) : List Char :=
  opening ++ entries.flatMap (fun e => renderEntry e.1 e.2) ++ closing

def render (m : KeyMap String) : String := String.ofList (renderEntries m.entries)

end LayeredConfig.Format.Xml

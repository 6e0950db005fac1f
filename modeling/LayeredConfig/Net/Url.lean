import LayeredConfig.Net.Address
import LayeredConfig.Net.Percent
import LayeredConfig.Net.Punycode
import LayeredConfig.Text.Blank
import LayeredConfig.Text.Lowercase
import LayeredConfig.Text.Search

/-!
Absolute URLs: reading a text into its parts and writing the normal form. Schemes of the web have a
host and a path of segments; `file` has a path of segments and mostly no host; any other scheme may
have both, a path of segments alone, or an opaque path. The engine takes a URL as a whole, for the
address of a backend or for a value, and no law of it depends on how one is read here.
-/

namespace LayeredConfig

/-- A URL in parts that are already encoded. -/
structure Url where
  scheme : List Char
  authority : Option (List Char)
  path : List Char
  query : Option (List Char)
  fragment : Option (List Char)
  deriving DecidableEq

namespace Url

/-- The normal form. Without an authority, a path that starts with two slashes is marked so that it
is not read as one. -/
def toText (u : Url) : String :=
  let authority := match u.authority with
    | some a => '/' :: '/' :: a
    | none => if (Text.dropPrefix? ['/', '/'] u.path).isSome then ['/', '.'] else []
  let query := match u.query with
    | some q => '?' :: q
    | none => []
  let fragment := match u.fragment with
    | some f => '#' :: f
    | none => []
  String.ofList (u.scheme ++ ':' :: authority ++ u.path ++ query ++ fragment)

/-- The kinds of schemes. -/
inductive SchemeKind
  | web | file | other
  deriving DecidableEq

def defaultPort? (scheme : List Char) : Option Nat :=
  let s := String.ofList scheme
  if s = "http" ∨ s = "ws" then some 80
  else if s = "https" ∨ s = "wss" then some 443
  else if s = "ftp" then some 21
  else none

def kindOf (scheme : List Char) : SchemeKind :=
  if (defaultPort? scheme).isSome then .web
  else if scheme = "file".toList then .file
  else .other

/-- Drops control characters and spaces at the ends, and tabs and line breaks everywhere. -/
def clean (s : List Char) : List Char :=
  (Text.trimWhile (fun c => c.toNat ≤ 0x20) s).filter fun c => c ≠ '\t' ∧ c ≠ '\n' ∧ c ≠ '\r'

/-- Whether a character may stand in a scheme after its first letter. -/
def isSchemeChar (c : Char) : Bool := c.isAlphanum || c = '+' || c = '-' || c = '.'

/-- The scheme of a text, in small letters, and what follows its colon. -/
def splitScheme? (s : List Char) : Option (List Char × List Char) :=
  match s.head?.any Char.isAlpha, s.dropWhile isSchemeChar with
  | true, ':' :: rest => some ((s.takeWhile isSchemeChar).map Char.toLower, rest)
  | _, _ => none

def cutBefore (p : Char → Bool) (s : List Char) : List Char × List Char :=
  (s.takeWhile (!p ·), s.dropWhile (!p ·))

def isSeparator (kind : SchemeKind) (c : Char) : Bool := c = '/' || (c = '\\' && kind ≠ .other)

/-- The number that a part of a numeric host denotes: hexadecimal after `0x`, octal after `0`. The
outer `none` is no number; the inner one is a number that is too large. -/
def numericPart? (s : List Char) : Option (Option Nat) :=
  let (radix, digits) := match s with
    | '0' :: 'x' :: rest | '0' :: 'X' :: rest => (16, rest)
    | '0' :: d :: rest => (8, d :: rest)
    | rest => (10, rest)
  if s = [] then none
  else if digits.all fun c => (Literal.digitValue? radix c).isSome then
    some ((Literal.readUp radix 0xFFFFFFFF 0 digits).toOption)
  else none

/-- The parts of a host between dots, without an empty last one. -/
def hostParts (host : List Char) : List (List Char) :=
  let parts := Text.splitBy (· = '.') host
  if parts.getLast? = some [] then parts.dropLast else parts

/-- Whether the last part of a host is a number. -/
def endsInNumber (host : List Char) : Bool :=
  match (hostParts host).getLast? with
  | some last => (last ≠ [] && last.all Char.isDigit) || (numericPart? last).isSome
  | none => false

/-- The address that a numeric host denotes. The last part fills all bytes that are left. -/
def numericHost (host : List Char) : Except UrlFault (List Char) := do
  let parts := hostParts host
  if 4 < parts.length then throw .badIpv4
  let numbers ← parts.mapM fun part => match numericPart? part with
    | some (some n) => Except.ok n
    | _ => Except.error UrlFault.badIpv4
  match numbers.reverse with
  | [] => throw .badIpv4
  | last :: front =>
    let width := 8 * (4 - front.length)
    if 1 <<< width ≤ last ∨ front.any (255 < ·) then throw .badIpv4
    let n := (front.foldr (fun byte n => 256 * n + byte) 0) <<< width + last
    return (IpAddress.v4 (n / 0x1000000) (n / 0x10000 % 256) (n / 256 % 256) (n % 256)).toText.toList

def bracketHost (s : List Char) : Except UrlFault (List Char) :=
  match s.getLast?, Net.whole Net.readGrouped s.dropLast with
  | some ']', some groups => .ok ('[' :: (Net.compressed groups).toList ++ [']'])
  | _, _ => .error .badIpv6

def isForbiddenHostChar (c : Char) : Bool :=
  ['\x00', '\t', '\n', '\r', ' ', '#', '/', ':', '<', '>', '?', '@', '[', '\\', ']', '^', '|'].contains c

def isForbiddenDomainChar (c : Char) : Bool :=
  isForbiddenHostChar c || Net.controlSet c || c = '%'

def domainChar (c : Char) : List Char :=
  if [0xAD, 0x200B, 0x2060, 0xFEFF].contains c.toNat then []
  else if [0x3002, 0xFF0E, 0xFF61].contains c.toNat then ['.']
  else if 0xFF01 ≤ c.toNat ∧ c.toNat ≤ 0xFF5E then
    [Text.lowerChar (Char.ofNat (c.toNat - 0xFEE0))]
  else [Text.lowerChar c]

def asciiDomain (s : List Char) : Except UrlFault (List Char) :=
  match String.fromUTF8? (ByteArray.mk (Net.percentDecode s).toArray) with
  | none => .error .badInternationalName
  | some decoded =>
    let folded := decoded.toList.flatMap domainChar
    if folded.any fun c => isForbiddenDomainChar c || c.toNat = 0xFFFD then
      .error .badInternationalName
    else .ok (List.intercalate ['.'] ((Text.splitBy (· = '.') folded).map Net.asciiLabel))

def domainHost (s : List Char) : Except UrlFault (List Char) :=
  match s with
  | '[' :: rest => bracketHost rest
  | _ => do
    let domain ← asciiDomain s
    if domain = [] then throw .emptyHost
    if endsInNumber domain then numericHost domain else return domain

def opaqueHost (s : List Char) : Except UrlFault (List Char) :=
  match s with
  | '[' :: rest => bracketHost rest
  | _ =>
    if s.any isForbiddenHostChar then .error .badDomainCharacter
    else .ok (Net.percentEncode Net.controlSet s)

/-- Splits an authority at its last at sign. -/
def splitUser (s : List Char) : Option (List Char) × List Char :=
  match Text.splitLast? ['@'] s with
  | some (user, rest) => (some user, rest)
  | none => (none, s)

/-- The encoded user name and password with the at sign; nothing if both are empty. -/
def userText (s : List Char) : List Char :=
  let (name, rest) := cutBefore (· = ':') s
  let encode := Net.percentEncode Net.userSet
  match encode name, rest.drop 1 with
  | [], [] => []
  | name, [] => name ++ ['@']
  | name, password => name ++ ':' :: encode password ++ ['@']

/-- Splits an authority without its user before the colon of the port; a colon in brackets is none. -/
def splitPort (bracketed : Bool) : List Char → List Char × List Char
  | [] => ([], [])
  | c :: cs =>
    if c = ':' ∧ !bracketed then ([], c :: cs)
    else
      let (host, port) := splitPort (if c = '[' then true else if c = ']' then false else bracketed) cs
      (c :: host, port)

/-- Reads the digits of a port. The part that a backslash starts is left over. -/
def readPort (port : Nat) (any : Bool) : List Char → Except UrlFault (Option Nat × List Char)
  | [] => .ok (if any then some port else none, [])
  | c :: cs =>
    if c.isDigit then
      let port := port * 10 + (c.toNat - 0x30)
      if 0xFFFF < port then .error .badPort else readPort port true cs
    else if c = '\\' then .ok (if any then some port else none, c :: cs)
    else .error .badPort

/-- Reads an authority: its text, and what is left over for the path. `closed` says that a
delimiter follows it. -/
def readAuthority (kind : SchemeKind) (default? : Option Nat) (s : List Char) (closed : Bool) :
    Except UrlFault (List Char × List Char) := do
  let (user?, rest) := splitUser s
  if user? = some [] ∧ rest = [] ∧ closed then throw .emptyHost
  let user := userText (user?.getD [])
  let (hostPart, portPart) := splitPort false rest
  if kind = .web ∧ hostPart = [] then throw .emptyHost
  let host ← if kind = .web then domainHost hostPart else opaqueHost hostPart
  match portPart with
  | [] =>
    if host = [] ∧ user ≠ [] then throw .emptyHost
    return (user ++ host, [])
  | _ :: digits =>
    if host = [] then throw .emptyHost
    let (port?, left) ← readPort 0 false digits
    let port := match port? with
      | some n => if port? = default? then [] else ':' :: (toString n).toList
      | none => []
    return (user ++ host ++ port, left)

def isSingleDot (s : List Char) : Bool :=
  [".", "%2e"].contains (String.ofList (s.map Char.toLower))

def isDoubleDot (s : List Char) : Bool :=
  ["..", ".%2e", "%2e.", "%2e%2e"].contains (String.ofList (s.map Char.toLower))

/-- Whether a segment names a drive: a letter and a colon or a bar. -/
def isDrive : List Char → Bool
  | [c, d] => c.isAlpha && (d = ':' || d = '|')
  | _ => false

/-- Drops the last segment; the drive of a file stays. -/
def dropSegment (kind : SchemeKind) (done : List (List Char)) : List (List Char) :=
  match kind, done with
  | .file, [drive] => if isDrive drive then done else []
  | _, _ => done.drop 1

/-- Resolves the dot segments; `done` holds the segments so far, last first. -/
def resolve (kind : SchemeKind) (done : List (List Char)) : List (List Char) → List (List Char)
  | [] => done.reverse
  | s :: rest =>
    let close (done : List (List Char)) := if rest = [] then [] :: done else done
    if isDoubleDot s then resolve kind (close (dropSegment kind done)) rest
    else if isSingleDot s then resolve kind (close done) rest
    else
      let s := Net.percentEncode Net.pathSet s
      let s := if kind = .file ∧ done = [] ∧ isDrive s then s.take 1 ++ [':'] else s
      resolve kind (s :: done) rest

/-- The path of segments of a text that stands after the leading slash. -/
def segmentPath (kind : SchemeKind) (s : List Char) : List Char :=
  let segments := resolve kind [] (Text.splitBy (isSeparator kind) s)
  '/' :: List.intercalate ['/'] segments

def dropSeparator (kind : SchemeKind) : List Char → List Char
  | c :: cs => if isSeparator kind c then cs else c :: cs
  | [] => []

/-- The path of a file: leading slashes count once. -/
def filePath (s : List Char) : List Char :=
  '/' :: (segmentPath .file (dropSeparator .file s)).dropWhile (· = '/')

/-- Reads what stands between the scheme and the query of a web address. -/
def readWeb (scheme s : List Char) (closed : Bool) : Except UrlFault (List Char × List Char) := do
  let (authority, path) := cutBefore (isSeparator .web) (s.dropWhile (isSeparator .web))
  let (authority, _) ← readAuthority .web (defaultPort? scheme) authority (closed || path ≠ [])
  return (authority, segmentPath .web (dropSeparator .web path))

/-- Reads what stands between the scheme and the query of a file address. -/
def readFilePart (s : List Char) : Except UrlFault (List Char × List Char) :=
  match s with
  | a :: b :: rest =>
    if isSeparator .file a ∧ isSeparator .file b then
      let (host, path) := cutBefore (isSeparator .file) rest
      if isDrive host then .ok ([], filePath rest)
      else if host = [] then .ok ([], filePath path)
      else do
        let host ← domainHost host
        return (if host = "localhost".toList then [] else host, filePath path)
    else .ok ([], filePath s)
  | _ => .ok ([], filePath s)

/-- Reads what stands between the scheme and the query of an address of another scheme. -/
def readOther (s : List Char) (closed : Bool) :
    Except UrlFault (Option (List Char) × List Char) :=
  match s with
  | '/' :: '/' :: rest => do
    let (authority, path) := cutBefore (· = '/') rest
    let (authority, left) ← readAuthority .other none authority (closed || path ≠ [])
    let path := left ++ path
    return (some authority, if path = [] then [] else segmentPath .other (dropSeparator .other path))
  | '/' :: rest => .ok (none, segmentPath .other rest)
  | s => .ok (none, Net.percentEncode Net.controlSet s)

def parse (text : List Char) : Except UrlFault Url := do
  let some (scheme, rest) := splitScheme? (clean text) | throw .relative
  let (rest, fragment) := cutBefore (· = '#') rest
  let (rest, query) := cutBefore (· = '?') rest
  let closed := query ≠ [] || fragment ≠ []
  let kind := kindOf scheme
  let (authority, path) ← match kind with
    | .web => do
      let (authority, path) ← readWeb scheme rest closed
      pure (some authority, path)
    | .file => do
      let (authority, path) ← readFilePart rest
      pure (some authority, path)
    | .other => readOther rest closed
  let querySet := if kind = .other then Net.querySet else Net.webQuerySet
  return {
    scheme, authority, path
    query := if query = [] then none else some (Net.percentEncode querySet (query.drop 1))
    fragment :=
      if fragment = [] then none else some (Net.percentEncode Net.fragmentSet (fragment.drop 1)) }

end Url

end LayeredConfig

import LayeredConfig.Literal.Float
import LayeredConfig.Net.Url

/-!
Typed values. Types that the library does not know itself are served by `Value.custom`, which
carries the name of the type and the text in which its value is written.
-/

namespace LayeredConfig

/-- The fixed-width integer types. The pointer-sized ones have 64 bits. -/
inductive IntegerKind
  | i8 | i16 | i32 | i64 | isize | u8 | u16 | u32 | u64 | usize
  deriving DecidableEq, Repr

namespace IntegerKind

def all : List IntegerKind := [i8, i16, i32, i64, isize, u8, u16, u32, u64, usize]

def name : IntegerKind → String
  | i8 => "i8"
  | i16 => "i16"
  | i32 => "i32"
  | i64 => "i64"
  | isize => "isize"
  | u8 => "u8"
  | u16 => "u16"
  | u32 => "u32"
  | u64 => "u64"
  | usize => "usize"

def bits : IntegerKind → Nat
  | i8 | u8 => 8
  | i16 | u16 => 16
  | i32 | u32 => 32
  | i64 | u64 | isize | usize => 64

def signed : IntegerKind → Bool
  | i8 | i16 | i32 | i64 | isize => true
  | _ => false

def count (k : IntegerKind) : Nat := 1 <<< k.bits

def lo (k : IntegerKind) : Int := if k.signed then -(k.count / 2 : Nat) else 0

def hi (k : IntegerKind) : Int := k.lo + k.count - 1

def Holds (k : IntegerKind) (n : Int) : Prop := k.lo ≤ n ∧ n ≤ k.hi

end IntegerKind

/-- A typed value. -/
inductive Value
  | text (s : String)
  | boolean (b : Bool)
  | integer (kind : IntegerKind) (n : Int)
  | float (width : FloatWidth) (x : FloatNumber)
  | character (c : Char)
  | path (s : String)
  | ipAddress (a : IpAddress)
  | socketAddress (a : SocketAddress)
  | url (u : Url)
  | duration (milliseconds : Nat)
  | custom (typeName written : String)
  deriving DecidableEq

namespace Value

def typeName : Value → String
  | .text _ => "String"
  | .boolean _ => "bool"
  | .integer kind _ => kind.name
  | .float width _ => width.name
  | .character _ => "char"
  | .path _ => "PathBuf"
  | .ipAddress _ => "IpAddr"
  | .socketAddress _ => "SocketAddr"
  | .url _ => "Url"
  | .duration _ => "Duration"
  | .custom name _ => name

/-- Whether two values of one type are equal as that type sees it: a float that is no number
equals nothing, and the two zeros are equal. -/
def same : Value → Value → Bool
  | .float w x, .float w' y => w = w' && x.same w y
  | a, b => a = b

end Value

end LayeredConfig

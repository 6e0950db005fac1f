import LayeredConfig.Literal.Integer

/-!
Reading decimal texts as binary floating-point numbers, correctly rounded: the nearest number, of
two equally near ones the even one. A number is kept as the bits of its format.
-/

namespace LayeredConfig

/-- The formats of floating-point numbers. -/
inductive FloatWidth
  | single | double
  deriving DecidableEq, Repr

namespace FloatWidth

/-- The bits of a significand, with the leading one. -/
def precision : FloatWidth → Nat
  | .single => 24
  | .double => 53

/-- The exponent of the smallest positive number is minus this. -/
def depth : FloatWidth → Nat
  | .single => 149
  | .double => 1074

def size : FloatWidth → Nat
  | .single => 32
  | .double => 64

def name : FloatWidth → String
  | .single => "f32"
  | .double => "f64"

def infinityBits : FloatWidth → Nat
  | .single => 0x7F800000
  | .double => 0x7FF0000000000000

def largestBits (w : FloatWidth) : Nat := w.infinityBits - 1

def signBit (w : FloatWidth) : Nat := 1 <<< (w.size - 1)

end FloatWidth

/-- A floating-point number: its bits, in which every number that is none is the same. -/
inductive FloatNumber
  | undefined
  | bits (n : Nat)
  deriving DecidableEq, Repr

namespace FloatNumber

/-- Equality of numbers: what is no number equals nothing, and the zeros are equal. -/
def same (w : FloatWidth) : FloatNumber → FloatNumber → Bool
  | .bits a, .bits b => a = b || (a % w.signBit = 0 && b % w.signBit = 0)
  | _, _ => false

end FloatNumber

namespace Literal

/-- The natural number next to a quotient; of two equally near ones the even one. -/
def divideToEven (a b : Nat) : Nat :=
  let q := a / b
  let r := a % b
  if 2 * r < b ∨ (2 * r = b ∧ q % 2 = 0) then q else q + 1

/-- The magnitude bits of the number next to `a / b`. The exponent of the last place is chosen so
that the significand has all its bits, but no deeper than the format reaches; then a carry out of
the significand runs into the exponent field by itself. -/
def roundQuotient (w : FloatWidth) (a b : Nat) : Nat :=
  if a = 0 then 0
  else
    let top : Int := (a.log2 : Int) - b.log2
    let above : Bool :=
      if 0 ≤ top then b <<< top.toNat ≤ a else b ≤ a <<< (-top).toNat
    let exact : Int := (if above then top else top - 1) - (w.precision - 1 : Nat)
    let e : Int := max exact (-(w.depth : Int))
    let q := if 0 ≤ e then divideToEven a (b <<< e.toNat) else divideToEven (a <<< (-e).toNat) b
    min w.infinityBits ((e + w.depth).toNat <<< (w.precision - 1) + q)

def spanDigits (s : List Char) : List Nat × List Char :=
  ((s.takeWhile Char.isDigit).map (fun c => c.toNat - '0'.toNat), s.dropWhile Char.isDigit)

def ofDigits (digits : List Nat) : Nat := digits.foldl (fun n d => 10 * n + d) 0

/-- The exponent that digits denote; it stops growing once it is out of all reach. -/
def exponentOf (digits : List Nat) : Nat :=
  digits.foldl (fun n d => if n < 0x10000 then 10 * n + d else n) 0

/-- A decimal number without its sign: digits before and after the point, and an exponent. -/
structure Decimal where
  whole : List Nat
  fraction : List Nat
  exponent : Int

/-- Reads the exponent of a decimal number, if the text starts with its mark. -/
def readExponent? : List Char → Option Int
  | [] => some 0
  | c :: rest =>
    if c = 'e' ∨ c = 'E' then
      let (negative, rest) := match rest with
        | '-' :: rest => (true, rest)
        | '+' :: rest => (false, rest)
        | rest => (false, rest)
      match spanDigits rest with
      | (d :: ds, []) =>
        let n : Int := exponentOf (d :: ds)
        some (if negative then -n else n)
      | _ => none
    else none

/-- Reads a decimal number without its sign; there is a digit before or after the point. -/
def readDecimal? (s : List Char) : Option Decimal :=
  let (whole, rest) := spanDigits s
  let (fraction, rest) := match rest with
    | '.' :: rest => spanDigits rest
    | rest => ([], rest)
  if whole = [] ∧ fraction = [] then none
  else (readExponent? rest).map fun e => ⟨whole, fraction, e⟩

/-- The magnitude bits of a decimal number. A number whose leading digit stands far beyond the
format's range is not computed. -/
def Decimal.round (w : FloatWidth) (d : Decimal) : Nat :=
  let digits := (d.whole ++ d.fraction).dropWhile (· = 0)
  let exponent : Int := d.exponent - d.fraction.length
  let lead : Int := exponent + digits.length
  if digits = [] ∨ lead < -400 then 0
  else if 400 < lead then w.infinityBits
  else
    let n := ofDigits digits
    if 0 ≤ exponent then roundQuotient w (n * Nat.pow 10 exponent.toNat) 1
    else roundQuotient w n (Nat.pow 10 (-exponent).toNat)

/-- The word of a magnitude that has no digits, in any case. -/
def floatWord? (w : FloatWidth) (s : List Char) : Option FloatNumber :=
  let word := String.ofList (s.map Char.toLower)
  if word = "nan" then some .undefined
  else if word = "inf" ∨ word = "infinity" then some (.bits w.infinityBits)
  else none

def readFloat (w : FloatWidth) (s : List Char) : Except LiteralFault FloatNumber :=
  if s = [] then .error .emptyFloat
  else
    let (negative, rest) := match s with
      | '-' :: rest => (true, rest)
      | '+' :: rest => (false, rest)
      | rest => (false, rest)
    let magnitude? := match readDecimal? rest with
      | some d => some (FloatNumber.bits (d.round w))
      | none => floatWord? w rest
    match magnitude? with
    | none => .error .badFloat
    | some .undefined => .ok .undefined
    | some (.bits n) => .ok (.bits (if negative then n + w.signBit else n))

end Literal

end LayeredConfig

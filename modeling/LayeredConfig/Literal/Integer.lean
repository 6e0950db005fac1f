import LayeredConfig.Literal.Fault

/-!
Reading integers digit by digit. A text is read from left to right, so of an unfit digit and a
number out of range the one that comes first is reported.
-/

namespace LayeredConfig.Literal

/-- The value of a digit below a radix of at most sixteen; letters count in both cases. -/
def digitValue? (radix : Nat) (c : Char) : Option Nat :=
  let v :=
    if '0' ≤ c ∧ c ≤ '9' then c.toNat - '0'.toNat
    else if 'a' ≤ c ∧ c ≤ 'f' then c.toNat - 'a'.toNat + 10
    else if 'A' ≤ c ∧ c ≤ 'F' then c.toNat - 'A'.toNat + 10
    else radix
  if v < radix then some v else none

/-- Continues a non-negative number by further digits, up to a largest value. -/
def readUp (radix hi : Nat) (acc : Nat) : List Char → Except LiteralFault Nat
  | [] => .ok acc
  | c :: cs =>
    match digitValue? radix c with
    | none => .error .badDigit
    | some d =>
      let next := acc * radix + d
      if next ≤ hi then readUp radix hi next cs else .error .tooLarge

/-- Continues the magnitude of a negative number by further digits, up to a largest magnitude. -/
def readDown (radix lo : Nat) (acc : Nat) : List Char → Except LiteralFault Nat
  | [] => .ok acc
  | c :: cs =>
    match digitValue? radix c with
    | none => .error .badDigit
    | some d =>
      let next := acc * radix + d
      if next ≤ lo then readDown radix lo next cs else .error .tooSmall

/-- Reads an integer between two bounds: an optional sign, a minus only if the lower bound is
negative, and at least one digit. -/
def readInteger (radix : Nat) (lo hi : Int) : List Char → Except LiteralFault Int
  | [] => .error .emptyInteger
  | ['+'] | ['-'] => .error .badDigit
  | '+' :: cs => return (← readUp radix hi.toNat 0 cs : Nat)
  | '-' :: cs =>
    if lo < 0 then return -(← readDown radix lo.natAbs 0 cs : Nat)
    else .error .badDigit
  | cs => return (← readUp radix hi.toNat 0 cs : Nat)

/-- Reads a natural number up to a bound, with an optional plus sign. -/
def readNatural (radix hi : Nat) (cs : List Char) : Except LiteralFault Nat :=
  return (← readInteger radix 0 hi cs).toNat

end LayeredConfig.Literal

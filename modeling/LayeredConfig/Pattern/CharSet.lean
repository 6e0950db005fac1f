import LayeredConfig.Text.Blank
import LayeredConfig.Text.Table.Casefold
import LayeredConfig.Text.Table.Word

/-!
Sets of characters as regular expressions describe them.
-/

namespace LayeredConfig.Pattern

/-- A description of a set of characters. -/
inductive CharSet
  | ranges (rs : List (Nat × Nat))
  | union (a b : CharSet)
  | intersection (a b : CharSet)
  | difference (a b : CharSet)
  | symmetricDifference (a b : CharSet)
  | complement (a : CharSet)
  | anyCase (unicode : Bool) (a : CharSet)
  deriving DecidableEq

def preimage (n : Nat) : Text.MappingRun → Option Nat
  | (first, last, stride, target) =>
    let m := first + (n - target)
    if target ≤ n ∧ m ≤ last ∧ (n - target) % stride = 0 then some m else none

/-- The code points that differ from a given one only in case, and itself: among all, or among those
of ASCII. -/
def caseVariants (unicode : Bool) (n : Nat) : List Nat :=
  if unicode then
    let folded := Text.applyRuns Text.casefoldRuns n
    n :: folded :: Text.casefoldRuns.filterMap (preimage folded)
  else if 0x41 ≤ n ∧ n ≤ 0x5A then [n, n + 0x20]
  else if 0x61 ≤ n ∧ n ≤ 0x7A then [n, n - 0x20]
  else [n]

namespace CharSet

def holds : CharSet → Nat → Bool
  | .ranges rs, n => Text.inRanges rs n
  | .union a b, n => a.holds n || b.holds n
  | .intersection a b, n => a.holds n && b.holds n
  | .difference a b, n => a.holds n && !b.holds n
  | .symmetricDifference a b, n => a.holds n != b.holds n
  | .complement a, n => !a.holds n
  | .anyCase unicode a, n => (caseVariants unicode n).any a.holds

def single (c : Char) : CharSet := .ranges [(c.toNat, c.toNat)]

def nothing : CharSet := .ranges []

def notLineFeed : CharSet := .complement (single '\n')

def anything : CharSet := .complement nothing

/-- The decimal digits, of all scripts or of ASCII. -/
def digits (unicode : Bool) : CharSet :=
  .ranges (if unicode then Text.digitRanges else [(0x30, 0x39)])

def space (unicode : Bool) : CharSet :=
  .ranges (if unicode then Text.whiteRanges else [(0x09, 0x0D), (0x20, 0x20)])

def word (unicode : Bool) : CharSet :=
  .ranges (if unicode then Text.wordRanges else [(0x30, 0x39), (0x41, 0x5A), (0x5F, 0x5F), (0x61, 0x7A)])

/-- The ASCII classes that are named between brackets and colons. -/
def named? (name : String) : Option CharSet :=
  match name with
  | "alnum" => some (.ranges [(0x30, 0x39), (0x41, 0x5A), (0x61, 0x7A)])
  | "alpha" => some (.ranges [(0x41, 0x5A), (0x61, 0x7A)])
  | "ascii" => some (.ranges [(0x00, 0x7F)])
  | "blank" => some (.ranges [(0x09, 0x09), (0x20, 0x20)])
  | "cntrl" => some (.ranges [(0x00, 0x1F), (0x7F, 0x7F)])
  | "digit" => some (digits false)
  | "graph" => some (.ranges [(0x21, 0x7E)])
  | "lower" => some (.ranges [(0x61, 0x7A)])
  | "print" => some (.ranges [(0x20, 0x7E)])
  | "punct" => some (.ranges [(0x21, 0x2F), (0x3A, 0x40), (0x5B, 0x60), (0x7B, 0x7E)])
  | "space" => some (space false)
  | "upper" => some (.ranges [(0x41, 0x5A)])
  | "word" => some (word false)
  | "xdigit" => some (.ranges [(0x30, 0x39), (0x41, 0x46), (0x61, 0x66)])
  | _ => none

end CharSet

end LayeredConfig.Pattern

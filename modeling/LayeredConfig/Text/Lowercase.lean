import LayeredConfig.Text.Table.Cased
import LayeredConfig.Text.Table.Lowercase

/-!
Lower-casing of texts by the Unicode rules. A capital sigma at the end of a word becomes a final
sigma, and the dotted capital I becomes two characters; every other capital has one small letter.
-/

namespace LayeredConfig.Text

/-- The small letter of a character that has a single one. -/
def lowerChar (c : Char) : Char := Char.ofNat (applyRuns lowercaseRuns c.toNat)

/-- Whether the first character that the case does not pass over is a cased one. -/
def meetsCased (s : List Char) : Bool :=
  match s.dropWhile fun c => inRanges caseIgnorableRanges c.toNat with
  | c :: _ => inRanges casedRanges c.toNat
  | [] => false

/-- Lower-cases a text; `before` holds the characters that stand before it, last first. -/
def lowerAfter (before : List Char) : List Char → List Char
  | [] => []
  | c :: cs =>
    let lowered :=
      if c = 'Σ' then (if meetsCased before && !meetsCased cs then ['ς'] else ['σ'])
      else if c = 'İ' then ['i', '\u0307']
      else [lowerChar c]
    lowered ++ lowerAfter (c :: before) cs

def lowercase (s : String) : String := String.ofList (lowerAfter [] s.toList)

def asciiLower (c : Char) : Char := if 'A' ≤ c ∧ c ≤ 'Z' then Char.ofNat (c.toNat + 32) else c

def asciiUpper (c : Char) : Char := if 'a' ≤ c ∧ c ≤ 'z' then Char.ofNat (c.toNat - 32) else c

end LayeredConfig.Text

/-!
Punycode: the digits that stand for the characters of a domain label outside ASCII. They are taken
in the order of their code points, as differences of variable length to base 36.
-/

namespace LayeredConfig.Net

def punyDigit (d : Nat) : Char :=
  if d < 26 then Char.ofNat (0x61 + d) else Char.ofNat (0x16 + d)

def punyThreshold (k bias : Nat) : Nat :=
  if k ≤ bias then 1 else if bias + 26 ≤ k then 26 else k - bias

theorem punyThreshold_pos (k bias : Nat) : 1 ≤ punyThreshold k bias := by
  unfold punyThreshold
  split
  · omega
  · split <;> omega

/-- Divides a difference by 35 until it is small; counts the divisions in steps of 36. -/
def punyShrink (delta k : Nat) : Nat × Nat :=
  if 455 < delta then punyShrink (delta / 35) (k + 36) else (delta, k)
termination_by delta
decreasing_by exact Nat.div_lt_self (by omega) (by omega)

/-- The bias after a difference; `count` characters are written by then. -/
def punyAdapt (delta count : Nat) (isFirst : Bool) : Nat :=
  let d := if isFirst then delta / 700 else delta / 2
  let (d, k) := punyShrink (d + d / count) 0
  k + 36 * d / (d + 38)

def punyDigits (bias k q : Nat) : List Char :=
  let t := punyThreshold k bias
  if q < t then [punyDigit q]
  else punyDigit (t + (q - t) % (36 - t)) :: punyDigits bias (k + 36) ((q - t) / (36 - t))
termination_by q
decreasing_by
  have h := punyThreshold_pos k bias
  exact Nat.lt_of_le_of_lt (Nat.div_le_self _ _) (by omega)

/-- The state of writing a label. -/
structure PunyState where
  written : List Char
  delta : Nat
  bias : Nat
  count : Nat

/-- Passes one character of the label while the characters with code point `m` are written. -/
def PunyState.pass (basic m : Nat) (st : PunyState) (c : Char) : PunyState :=
  if c.toNat < m then { st with delta := st.delta + 1 }
  else if c.toNat = m then
    { written := st.written ++ punyDigits st.bias 36 st.delta
      delta := 0
      bias := punyAdapt st.delta (st.count + 1) (st.count = basic)
      count := st.count + 1 }
  else st

/-- Writes the characters with the given code points, in their order; `n` is the least code point
not yet passed. -/
def PunyState.write (label : List Char) (basic : Nat) : List Nat → Nat → PunyState → PunyState
  | [], _, st => st
  | m :: rest, n, st =>
    let st := { st with delta := st.delta + (m - n) * (st.count + 1) }
    let st := label.foldl (pass basic m) st
    write label basic rest (m + 1) { st with delta := st.delta + 1 }

def asciiLabel (label : List Char) : List Char :=
  if label.all (·.toNat < 0x80) then label
  else
    let basic := label.filter (·.toNat < 0x80)
    let start := if basic = [] then [] else basic ++ ['-']
    let points := ((label.map Char.toNat).filter (0x80 ≤ ·)).mergeSort.eraseDups
    let st := PunyState.write label basic.length points 0x80 ⟨start, 0, 72, basic.length⟩
    "xn--".toList ++ st.written

end LayeredConfig.Net

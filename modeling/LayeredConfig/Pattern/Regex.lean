import LayeredConfig.Pattern.CharSet
import LayeredConfig.Pattern.Engine

/-!
Regular expressions and what they match. `Regex.Matches` says when an expression matches from one
place of a text to another; `Regex.ends` computes the places where a match from a given place ends.
-/

namespace LayeredConfig.Pattern

/-- Where a place lies between word characters and others. -/
inductive Edge
  | boundary | noBoundary | start | finish | startHalf | finishHalf
  deriving DecidableEq

/-- Conditions on a place. Lines end in a line feed, or with `crlf` in a carriage return, a line feed
or both together. -/
inductive Look
  | textStart | textEnd
  | lineStart (crlf : Bool) | lineEnd (crlf : Bool)
  | word (unicode : Bool) (edge : Edge)
  deriving DecidableEq

/-- A regular expression. -/
inductive Regex
  | empty
  | set (s : CharSet)
  | look (l : Look)
  | cat (a b : Regex)
  | alt (a b : Regex)
  | repeat (low : Nat) (high : Option Nat) (r : Regex)
  deriving DecidableEq

def Edge.holds (left right : Bool) : Edge → Bool
  | .boundary => left != right
  | .noBoundary => left == right
  | .start => !left && right
  | .finish => left && !right
  | .startHalf => !left
  | .finishHalf => !right

def isWordChar (unicode : Bool) (c : Char) : Bool := (CharSet.word unicode).holds c.toNat

def Look.holds (p : Place) : Look → Bool
  | .textStart => p.before = []
  | .textEnd => p.after = []
  | .lineStart false => p.before.head?.all (· = '\n')
  | .lineEnd false => p.after.head?.all (· = '\n')
  | .lineStart true =>
    p.before.head?.all fun c => c = '\n' || c = '\r' && p.after.head? ≠ some '\n'
  | .lineEnd true =>
    p.after.head?.all fun c => c = '\r' || c = '\n' && p.before.head? ≠ some '\r'
  | .word unicode edge =>
    edge.holds (p.before.head?.any (isWordChar unicode)) (p.after.head?.any (isWordChar unicode))

namespace Regex

/-- The matches of an expression, from one place of a text to another. -/
inductive Matches : Regex → Place → Place → Prop
  | empty (p : Place) : Matches .empty p p
  | set {s : CharSet} {c : Char} {before after : List Char} (h : s.holds c.toNat = true) :
      Matches (.set s) ⟨before, c :: after⟩ ⟨c :: before, after⟩
  | look {l : Look} {p : Place} (h : l.holds p = true) : Matches (.look l) p p
  | cat {a b : Regex} {p q r : Place} : Matches a p q → Matches b q r → Matches (.cat a b) p r
  | altLeft {a b : Regex} {p q : Place} : Matches a p q → Matches (.alt a b) p q
  | altRight {a b : Regex} {p q : Place} : Matches b p q → Matches (.alt a b) p q
  | done {high : Option Nat} {r : Regex} (p : Place) : Matches (.repeat 0 high r) p p
  | more {low : Nat} {r : Regex} {p q s : Place} :
      Matches r p q → Matches (.repeat (low - 1) none r) q s → Matches (.repeat low none r) p s
  | moreBounded {low high : Nat} {r : Regex} {p q s : Place} :
      Matches r p q → Matches (.repeat (low - 1) (some high) r) q s →
      Matches (.repeat low (some (high + 1)) r) p s

def iterate (step : List Place → List Place) : Nat → List Place → List Place
  | 0, ps => ps
  | n + 1, ps => iterate step n (step ps)

def reach (step : List Place → List Place) : Nat → List Place → List Place
  | 0, ps => ps
  | n + 1, ps => if ps = [] then [] else (ps ++ reach step n (step ps)).eraseDups

/-- The places where the matches from a place end. A repetition without a bound reaches nothing new
after as many rounds as there are characters. -/
def ends : Regex → Place → List Place
  | .empty, p => [p]
  | .set s, ⟨before, c :: after⟩ => if s.holds c.toNat then [⟨c :: before, after⟩] else []
  | .set _, ⟨_, []⟩ => []
  | .look l, p => if l.holds p then [p] else []
  | .cat a b, p => ((ends a p).flatMap (ends b)).eraseDups
  | .alt a b, p => (ends a p ++ ends b p).eraseDups
  | .repeat low high r, p =>
    let step (ps : List Place) := (ps.flatMap (ends r)).eraseDups
    let rounds := match high with
      | some high => high - low
      | none => p.after.length
    match high with
    | some high => if high < low then [] else reach step rounds (iterate step low [p])
    | none => reach step rounds (iterate step low [p])

def places (before : List Char) : List Char → List Place
  | [] => [⟨before, []⟩]
  | c :: cs => ⟨before, c :: cs⟩ :: places (c :: before) cs

def isMatch (r : Regex) (s : List Char) : Bool :=
  (places [] s).any fun p => !(ends r p).isEmpty

end Regex

end LayeredConfig.Pattern

/-!
Regular expressions as they are given from outside. Nothing is said here of their syntax: an engine
reads expressions, holds them to limits, and matches them.
-/

namespace LayeredConfig.Pattern

/-- A place in a text: what stands before it, last character first, and what stands after it. -/
structure Place where
  before : List Char
  after : List Char
  deriving DecidableEq

/-- What reads and matches regular expressions. An expression that is read may still go beyond the
limits on its nesting and its size. `Matches` says from where to where an expression matches in a
text, and `isMatch` decides whether it matches anywhere. -/
structure Engine where
  Expression : Type
  parse? : List Char → Option Expression
  fits : Expression → Bool
  isMatch : Expression → List Char → Bool
  Matches : Expression → Place → Place → Prop

/-- The expression that a text is, within the limits. -/
def Engine.compile? (engine : Engine) (s : List Char) : Option engine.Expression :=
  (engine.parse? s).filter engine.fits

end LayeredConfig.Pattern

import LayeredConfig.Pattern.Engine

/-!
Patterns that restrict keys and names: a regular expression between marks that tie it to both ends
of a text.
-/

namespace LayeredConfig

/-- What is accepted, and the text of the expression that says so. -/
structure WholePattern where
  text : String
  accepts : String → Bool

/-- Ties an expression to both ends of a text and reads it. -/
def WholePattern.compile? (engine : Pattern.Engine) (expression : String) : Option WholePattern :=
  let text := "^(?:" ++ expression ++ ")$"
  (engine.compile? text.toList).map fun r => ⟨text, fun s => engine.isMatch r s.toList⟩

end LayeredConfig

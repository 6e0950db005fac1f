import LayeredConfig.Pattern.Engine
import LayeredConfig.Pattern.Syntax

/-!
The engine that reads expressions with `Syntax.read?` and matches them with `Regex.isMatch`. It knows
no classes by the properties of characters, and sets no limits.
-/

namespace LayeredConfig.Pattern

def Engine.standard : Engine where
  Expression := Regex
  parse? := Syntax.read?
  fits _ := true
  isMatch := Regex.isMatch
  Matches := Regex.Matches

end LayeredConfig.Pattern

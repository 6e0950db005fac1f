import LayeredConfig.KeyMap

/-!
Hints of a caller to a conversion: a declared default, a declared key, and free annotations.
-/

namespace LayeredConfig

/-- What a caller declares about a value it asks for. -/
structure Hints where
  fallback : Option String
  name : Option String
  annotations : KeyMap String
  deriving DecidableEq

namespace Hints

def none : Hints := ⟨.none, .none, .empty⟩

def annotation (h : Hints) (name : String) : Option String := h.annotations.get? name

end Hints

end LayeredConfig

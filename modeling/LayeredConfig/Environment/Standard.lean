import LayeredConfig.Converter.Standard
import LayeredConfig.Environment
import LayeredConfig.Filter.Placeholder
import LayeredConfig.Provider.Variables

/-!
The standard environment: environment variables, the placeholder filter, and the standard
conversions.
-/

namespace LayeredConfig

/-- The converters of the standard conversions, told apart by their places. -/
def Conversion.converters {m : Type → Type} [Monad m] : List (Converter m) :=
  bundle.zipIdx.map fun (c, i) => c.toConverter i

def VariableProvider.make : Act (Provider Act) := do
  return (VariableProvider.mk (← freshTag) defaultMapping).toProvider

def Environment.standard : Environment Act where
  name := "standard"
  defaultProviders := [VariableProvider.make]
  discoveredProviders := []
  defaultConverters := Conversion.converters
  defaultFilters := [Filter.placeholder]

end LayeredConfig

import LayeredConfig.Net.Url
import LayeredConfig.Provider

/-!
Sample providers: one that always fails, one whose backend refuses every commit, and one that does
no more than it has to. They show how the engine takes failures.
-/

namespace LayeredConfig.Sample

variable {m : Type → Type} [Monad m]

/-- What is wrong with a provider that always fails. -/
inductive Outage
  | backend | argument | text
  deriving DecidableEq, Repr

def Outage.error (name : String) : Outage → ConfigError
  | .backend => .source name "backend unavailable" none
  | .argument => .argument (.because "backend misconfigured")
  | .text => .parse "garbage" none

def failing (tag : Tag) (name : String) (ordinal : Int) (outage : Outage) : Provider m where
  tag := tag
  name := name
  defaultOrdinal := return ordinal
  scannable := true
  get _ := throw (outage.error name)
  properties := throw (outage.error name)
  access := none
  source := none

def brokenAddress (name : String) : Except ConfigError String :=
  match Url.parse ("broken:" ++ name).toList with
  | .ok u => .ok u.toText
  | .error fault => .error (.argument (.because fault.message))

/-- A writable provider that holds nothing and refuses every commit, or even every request. -/
def broken (tag : Tag) (name : String) (ordinal : Int) (failOpen : Bool) (fresh : m Tag) :
    Provider m where
  tag := tag
  name := name
  defaultOrdinal := return ordinal
  scannable := true
  get _ := return none
  properties := return .empty
  access := some {
    acceptsPut := fun _ => true
    acceptsRemoval := fun _ => true
    backend := brokenAddress name
    openRequest := do
      if failOpen then throw (.source name "no connection" none)
      let backend ← brokenAddress name
      return .create (← fresh) backend fun _ => throw (.source name "disk full" none) }
  source := none

def fixed (tag : Tag) (name : String) : Provider m where
  tag := tag
  name := name
  defaultOrdinal := return 0
  scannable := true
  get key := do
    if key = "fixed.key" then return some (← PropertyValue.of key "fixed-value" name)
    else return none
  properties := PropertyValue.mapOf [("fixed.key", "fixed-value")] name
  access := none
  source := none

end LayeredConfig.Sample

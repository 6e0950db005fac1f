import LayeredConfig.Change.Request
import LayeredConfig.Pattern.Standard
import LayeredConfig.Pattern.Whole

/-!
Policies that choose which backends receive a change. Whatever the policy, only backends that
accept the change are chosen, and none twice.
-/

namespace LayeredConfig

/-- What a policy knows of a backend. -/
structure Target where
  name : String
  accepts : Mutation → Bool

/-- Which backends receive a change. -/
inductive Policy
  | mostSignificant
  | all
  | none
  | selective (names : WholePattern)
  | custom (tag : Tag) (route : Mutation → List Target → List Nat)

namespace Policy

/-- The policy that chooses the backends whose whole name an expression matches. -/
def selecting (expression : String) (engine : Pattern.Engine := .standard) :
    Except ConfigError Policy :=
  match WholePattern.compile? engine expression with
  | some names => .ok (.selective names)
  | .none => .error (.argument (.nameExpression expression))

def passes (targets : List Target) (test : Target → Bool) (i : Nat) : Bool :=
  targets[i]?.any test

/-- The indices of the targets that pass a test, in increasing order. -/
def indices (targets : List Target) (test : Target → Bool) : List Nat :=
  (List.range targets.length).filter (passes targets test)

/-- Keeps the indices of accepting targets, each at its first place; `seen` holds those kept. -/
def restrict (targets : List Target) (change : Mutation) (seen : List Nat) : List Nat → List Nat
  | [] => []
  | i :: rest =>
    if passes targets (·.accepts change) i && !seen.contains i then
      i :: restrict targets change (i :: seen) rest
    else restrict targets change seen rest

/-- The indices of the targets that receive a change; the targets stand in effective order. -/
def select (policy : Policy) (change : Mutation) (targets : List Target) : List Nat :=
  let accepting := indices targets (·.accepts change)
  match policy with
  | .mostSignificant => accepting.take 1
  | .all => accepting
  | .none => []
  | .selective names => accepting.filter (passes targets fun t => names.accepts t.name)
  | .custom _ route => restrict targets change [] (route change targets)

/-- A short name of a policy, which is its description too. -/
def label : Policy → String
  | .mostSignificant => "most-significant-only"
  | .all => "all"
  | .none => "none"
  | .selective names => s!"selective({names.text})"
  | .custom .. => "custom"

/-- Equality of policies: selective ones by their text, custom ones by their identity. -/
def same : Policy → Policy → Bool
  | .mostSignificant, .mostSignificant => true
  | .all, .all => true
  | .none, .none => true
  | .selective a, .selective b => a.text = b.text
  | .custom a _, .custom b _ => a = b
  | _, _ => false

end Policy

instance : Inhabited Policy := ⟨.mostSignificant⟩

end LayeredConfig

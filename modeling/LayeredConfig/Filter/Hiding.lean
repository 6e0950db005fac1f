import LayeredConfig.Filter
import LayeredConfig.Pattern.Standard
import LayeredConfig.Pattern.Whole

/-!
The filter that hides the values whose keys a pattern accepts.
-/

namespace LayeredConfig.Filter

/-- Hides the values whose keys an expression matches as a whole. -/
def hide {m : Type → Type} [Monad m] (expression : String)
    (engine : Pattern.Engine := .standard) : Except ConfigError (Filter m) :=
  match WholePattern.compile? engine expression with
  | some pattern =>
    .ok ⟨"key-hiding", fun _ v => pure (if pattern.accepts v.key then none else some v)⟩
  | none => .error (.argument (.keyPattern expression))

end LayeredConfig.Filter

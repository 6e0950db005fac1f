import LayeredConfig.Change.Request

/-!
Calls on a change request, as data: a run of a request is a list of calls.
-/

namespace LayeredConfig

/-- What can be asked of a change request. -/
inductive RequestCall
  | put (key value : String)
  | putAll (entries : List (String × String))
  | remove (keys : List String)
  | removeAll (keys : List String)
  | commit
  | cancel
  | look
  deriving DecidableEq, Repr

namespace ChangeRequest

variable {m : Type → Type} [Monad m]

omit [Monad m] in
/-- The outcome of a step that leaves the request as it is when it fails. -/
def settle (r : ChangeRequest m) :
    Except ConfigError (ChangeRequest m) → Except ConfigError Unit × ChangeRequest m
  | .ok after => (.ok (), after)
  | .error e => (.error e, r)

def perform (r : ChangeRequest m) : RequestCall → m (Except ConfigError Unit × ChangeRequest m)
  | .put key value => return r.settle (r.put key value)
  | .putAll entries => return r.settle (r.putAll entries)
  | .remove keys => return r.settle (r.remove keys)
  | .removeAll keys => return r.settle (r.removeAll keys)
  | .commit => r.commit
  | .cancel => return r.settle r.cancel
  | .look => return (.ok (), r)

end ChangeRequest

end LayeredConfig

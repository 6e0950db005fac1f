import LayeredConfig.Change.ChangeSet
import LayeredConfig.Error

/-!
Change requests: transactions against one backend. A request collects changes while it is open;
committing hands them to the backend's routine, cancelling drops them, and both close the request.
A routine that fails leaves the request as it was.
-/

namespace LayeredConfig

/-- Names an object, so that two handles can be told apart. -/
abbrev Tag := Nat

/-- What texts show in place of a request's identity, which differs from run to run. -/
def Tag.masked : String := "<id>"

/-- The stages of a request's life. -/
inductive RequestState
  | opened | committed | cancelled
  deriving DecidableEq, Repr

def RequestState.name : RequestState → String
  | .opened => "Open"
  | .committed => "Committed"
  | .cancelled => "Cancelled"

/-- A transaction against one backend, whose routine runs in the monad `m`. -/
structure ChangeRequest (m : Type → Type) where
  tag : Tag
  backend : String
  correlation : Option Tag
  state : RequestState
  changes : ChangeSet
  persist : ChangeSet → ExceptT ConfigError m Unit

namespace ChangeRequest

variable {m : Type → Type}

def create (tag : Tag) (backend : String) (persist : ChangeSet → ExceptT ConfigError m Unit) :
    ChangeRequest m :=
  ⟨tag, backend, none, .opened, .empty, persist⟩

def correlated (r : ChangeRequest m) (correlation : Tag) : ChangeRequest m :=
  { r with correlation := some correlation }

def isClosed (r : ChangeRequest m) : Bool := r.state ≠ .opened

def requireOpen (r : ChangeRequest m) : Except ConfigError Unit :=
  if r.isClosed then .error (.requestClosed Tag.masked r.backend) else .ok ()

def requireKeys (keys : List String) : Except ConfigError Unit :=
  keys.forM ConfigError.requireKey

def put (r : ChangeRequest m) (key value : String) : Except ConfigError (ChangeRequest m) := do
  r.requireOpen
  ConfigError.requireKey key
  return { r with changes := r.changes.put key value }

def putAll (r : ChangeRequest m) (entries : List (String × String)) :
    Except ConfigError (ChangeRequest m) := do
  r.requireOpen
  requireKeys (entries.map (·.1))
  return { r with changes := r.changes.putAll entries }

def remove (r : ChangeRequest m) (keys : List String) : Except ConfigError (ChangeRequest m) := do
  r.requireOpen
  requireKeys keys
  return { r with changes := r.changes.removeAll keys }

/-- The counterpart of `putAll`: the same as `remove`. -/
def removeAll (r : ChangeRequest m) (keys : List String) : Except ConfigError (ChangeRequest m) :=
  r.remove keys

def stage (r : ChangeRequest m) : Mutation → Except ConfigError (ChangeRequest m)
  | .put key value => r.put key value
  | .remove key => r.remove [key]

def close (r : ChangeRequest m) (state : RequestState) : ChangeRequest m :=
  { r with state, changes := .empty }

/-- Hands the changes to the backend. If its routine succeeds, the request is closed. -/
def commit [Monad m] (r : ChangeRequest m) : m (Except ConfigError Unit × ChangeRequest m) :=
  match r.requireOpen with
  | .error e => pure (.error e, r)
  | .ok () => do
    match ← (r.persist r.changes).run with
    | .error e => pure (.error e, r)
    | .ok () => pure (.ok (), r.close .committed)

def cancel (r : ChangeRequest m) : Except ConfigError (ChangeRequest m) := do
  r.requireOpen
  return r.close .cancelled

def describe (r : ChangeRequest m) : String :=
  let correlation := match r.correlation with
    | none => "None"
    | some _ => "Some(" ++ Tag.masked ++ ")"
  Text.describeRecord "ChangeRequest"
    [("request_id", Tag.masked), ("backend", Text.quoted r.backend),
      ("correlation_id", correlation), ("state", r.state.name), ("changes", r.changes.describe)]

end ChangeRequest

end LayeredConfig

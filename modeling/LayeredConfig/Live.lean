import LayeredConfig.Configuration

/-!
Live values: a typed value that is looked up again on demand. A policy says what happens when the
look-up gives another value: it is adopted at once, kept back until it is committed, or passed over.
-/

namespace LayeredConfig

/-- What happens to a value that differs from the latest one. -/
inductive UpdatePolicy
  | immediate | explicit | never | logOnly
  deriving DecidableEq, Repr

def UpdatePolicy.name : UpdatePolicy → String
  | .immediate => "Immediate"
  | .explicit => "Explicit"
  | .never => "Never"
  | .logOnly => "LogOnly"

/-- The state of a live value: the adopted value, and the one kept back, which may be that there is
none. -/
structure LiveState where
  policy : UpdatePolicy
  latest : Option Value
  pending : Option (Option Value)

namespace LiveState

def agrees : Option Value → Option Value → Bool
  | none, none => true
  | some a, some b => a.same b
  | _, _ => false

def observe (s : LiveState) (fresh : Option Value) : LiveState :=
  if agrees fresh s.latest then { s with pending := none }
  else match s.policy with
    | .immediate => { s with latest := fresh, pending := none }
    | .explicit => { s with pending := some fresh }
    | .never | .logOnly => s

def commit (s : LiveState) : Bool × LiveState :=
  match s.pending with
  | some v => (true, { s with latest := v, pending := none })
  | none => (false, s)

def discard (s : LiveState) : LiveState := { s with pending := none }

end LiveState

/-- A live value: where it is looked up, and its state. -/
structure Live (m : Type → Type) where
  configuration : Configuration m
  key : String
  typeName : String
  hints : Option Hints
  state : LiveState

namespace Live

variable {m : Type → Type} [Monad m]

def resolve (l : Live m) : ExceptT ConfigError m (Option Value) :=
  l.configuration.convert l.typeName l.key (.plain l.typeName) l.hints

def create (configuration : Configuration m) (key typeName : String) (hints : Option Hints)
    (policy : UpdatePolicy) : ExceptT ConfigError m (Live m) := do
  let l : Live m := ⟨configuration, key, typeName, hints, ⟨policy, none, none⟩⟩
  let v ← l.resolve
  return { l with state := ⟨policy, v, none⟩ }

/-- Looks the value up and takes note of it; a failure changes nothing. -/
def current (l : Live m) : ExceptT ConfigError m (Option Value × Live m) := do
  let fresh ← l.resolve
  return (fresh, { l with state := l.state.observe fresh })

omit [Monad m] in
def commit (l : Live m) : Bool × Live m :=
  let (done, state) := l.state.commit
  (done, { l with state })

omit [Monad m] in
def discard (l : Live m) : Live m := { l with state := l.state.discard }

omit [Monad m] in
def setPolicy (l : Live m) (policy : UpdatePolicy) : Live m :=
  { l with state := { l.state with policy } }

end Live

end LayeredConfig

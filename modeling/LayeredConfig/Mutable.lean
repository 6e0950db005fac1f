import LayeredConfig.Configuration

/-!
Changing a configuration: changes are routed by a policy to the writable providers, staged in one
change request per provider, and stored together or dropped together. Requests stand in the order
of their providers, so the backend of the most significant provider is committed first.
-/

namespace LayeredConfig

/-- A configuration with staged changes. The writable providers stand in effective order; each
request carries the index of its provider, and the indices increase. -/
structure Mutable (m : Type → Type) where
  configuration : Configuration m
  policy : Policy
  writables : List (Provider m)
  requests : List (Nat × ChangeRequest m)
  correlation : Tag

/-- What can be asked of a configuration with staged changes until it is stored. -/
inductive MutableCall
  | put (key value : String)
  | putAll (entries : List (String × String))
  | remove (keys : List String)
  deriving DecidableEq, Repr

def MutableCall.changes : MutableCall → List Mutation
  | .put key value => [.put key value]
  | .putAll entries => entries.map fun e => .put e.1 e.2
  | .remove keys => keys.map .remove

/-- What was dropped: the backends whose requests were cancelled, and the failures. -/
structure CancelReport where
  cancelled : List String
  failures : List ConfigError

def CancelReport.isClean (r : CancelReport) : Bool := r.failures.isEmpty

namespace Mutable

variable {m : Type → Type}

def create (correlation : Tag) (configuration : Configuration m) (policy : Policy) : Mutable m :=
  ⟨configuration, policy, configuration.context.providers.filter (·.isWritable), [], correlation⟩

def request? (index : Nat) : List (Nat × ChangeRequest m) → Option (ChangeRequest m)
  | [] => none
  | (i, r) :: rest => if i = index then some r else request? index rest

def setRequest (index : Nat) (r : ChangeRequest m) :
    List (Nat × ChangeRequest m) → List (Nat × ChangeRequest m)
  | [] => [(index, r)]
  | (i, q) :: rest =>
    if index < i then (index, r) :: (i, q) :: rest
    else if index = i then (index, r) :: rest
    else (i, q) :: setRequest index r rest

variable [Monad m]

def requestFor (mc : Mutable m) (index : Nat) : ExceptT ConfigError m (ChangeRequest m) := do
  match request? index mc.requests with
  | some r => return r
  | none =>
    match mc.writables[index]? with
    | some p =>
      match p.access with
      | some access => return (← access.openRequest).correlated mc.correlation
      | none => throw (.argument (.notWritable p.name))
    | none => throw (.argument (.notWritable ""))

/-- Stages a change with the providers at some indices, one after another. A failure ends this;
what is staged before it stays. -/
def stageAt (mc : Mutable m) (change : Mutation) :
    List Nat → m (Except ConfigError Unit × Mutable m)
  | [] => return (.ok (), mc)
  | i :: rest => do
    match ← (mc.requestFor i).run with
    | .error e => return (.error e, mc)
    | .ok r =>
      match r.stage change with
      | .error e => return (.error e, { mc with requests := setRequest i r mc.requests })
      | .ok r => stageAt { mc with requests := setRequest i r mc.requests } change rest

/-- Stages a change with the providers that the policy selects. -/
def route (mc : Mutable m) (change : Mutation) : m (Except ConfigError Unit × Mutable m) :=
  mc.stageAt change (mc.policy.select change (mc.writables.map (·.target)))

def routeAll (mc : Mutable m) : List Mutation → m (Except ConfigError Unit × Mutable m)
  | [] => return (.ok (), mc)
  | change :: rest => do
    match ← mc.route change with
    | (.ok (), mc) => routeAll mc rest
    | (.error e, mc) => return (.error e, mc)

def stage (mc : Mutable m) (changes : List Mutation) : m (Except ConfigError Unit × Mutable m) :=
  match ChangeRequest.requireKeys (changes.map (·.key)) with
  | .ok () => mc.routeAll changes
  | .error e => return (.error e, mc)

def put (mc : Mutable m) (key value : String) : m (Except ConfigError Unit × Mutable m) :=
  mc.stage [.put key value]

def putAll (mc : Mutable m) (entries : List (String × String)) :
    m (Except ConfigError Unit × Mutable m) :=
  mc.stage (entries.map fun e => .put e.1 e.2)

def remove (mc : Mutable m) (keys : List String) : m (Except ConfigError Unit × Mutable m) :=
  mc.stage (keys.map .remove)

def perform (mc : Mutable m) : MutableCall → m (Except ConfigError Unit × Mutable m)
  | .put key value => mc.put key value
  | .putAll entries => mc.putAll entries
  | .remove keys => mc.remove keys

theorem perform_eq_stage (mc : Mutable m) (call : MutableCall) :
    mc.perform call = mc.stage call.changes := by
  cases call with
  | put key value => rfl
  | putAll entries => rfl
  | remove keys => rfl

omit [Monad m] in
/-- Cancels requests; gives the backends of those that could be cancelled, and the failures. -/
def cancelAll : List (ChangeRequest m) → CancelReport
  | [] => ⟨[], []⟩
  | r :: rest =>
    let report := cancelAll rest
    match r.cancel with
    | .ok _ => { report with cancelled := r.backend :: report.cancelled }
    | .error e => { report with failures := e :: report.failures }

/-- Commits requests one after another; `committed` holds the backends before. If one fails, it and
all after it are cancelled. -/
def commitAll (committed : List String) :
    List (ChangeRequest m) → ExceptT ConfigError m (List String)
  | [] => return committed
  | r :: rest => do
    match ← ExceptT.lift r.commit with
    | (.ok (), _) => commitAll (committed ++ [r.backend]) rest
    | (.error e, failed) =>
      throw (.commitFailed r.backend committed (cancelAll (failed :: rest)).cancelled e)

/-- Commits everything staged, and gives the backends that took part. -/
def store (mc : Mutable m) : ExceptT ConfigError m (List String) :=
  commitAll [] (mc.requests.map (·.2))

omit [Monad m] in
def cancel (mc : Mutable m) : CancelReport := cancelAll (mc.requests.map (·.2))

end Mutable

end LayeredConfig

import LayeredConfig.Environment
import LayeredConfig.Live
import LayeredConfig.Mutable
import LayeredConfig.Report.Value

/-!
Reports on the parts of the engine, as JSON for tools that watch it.
-/

namespace LayeredConfig

def ChangeSet.report (c : ChangeSet) : Json :=
  .object [("put", c.puts.reportTexts), ("removed", .texts c.removals.keys),
    ("empty", .bool c.isEmpty)]

def ChangeRequest.report {m : Type → Type} (r : ChangeRequest m) : Json :=
  .object [("backend", .text r.backend), ("state", .text r.state.name),
    ("closed", .bool r.isClosed), ("changes", r.changes.report)]

/-- The report of a policy, with the places that it selects for changes among some targets. -/
def Policy.report (policy : Policy) (targets : List Target) (changes : List Mutation) :
    List (String × Json) :=
  let places (change : Mutation) := (policy.select change targets).map fun (i : Nat) => Json.integer i
  [("label", .text policy.label), ("debug", .text policy.label),
    ("selected", .list (changes.map fun change => .list (places change))),
    ("is_default", .bool (policy.same default)), ("equals_clone", .bool (policy.same policy))]

def Mutable.report {m : Type → Type} (mc : Mutable m) : Json :=
  let requests := mc.requests.map (·.2)
  .object [("requests", .list (requests.map ChangeRequest.report)),
    ("correlated", .bool (requests.all (·.correlation == some mc.correlation))),
    ("distinct", .integer (requests.map (·.tag)).eraseDups.length)]

def Mutable.reportTargets {m : Type → Type} (mc : Mutable m) : Json :=
  .object [("policy", .text mc.policy.label), ("writables", .texts (mc.writables.map (·.name))),
    ("providers", .integer mc.configuration.context.providers.length)]

def CancelReport.report (r : CancelReport) : Json :=
  .object [("cancelled", .texts r.cancelled), ("failures", .integer r.failures.length),
    ("clean", .bool r.isClean)]

/-- The report of a live value, with the result of what was asked of it. -/
def Live.report {m : Type → Type} (l : Live m) (result : Json) : Json :=
  let pending := match l.state.pending with
    | some v => .list [Value.reportOptional v]
    | none => .null
  .object [("result", result), ("latest", Value.reportOptional l.state.latest),
    ("has_pending", .bool l.state.pending.isSome), ("pending", pending),
    ("policy", .text l.state.policy.name)]

/-- The report of a result, by a caller that takes values of one type. -/
def Converted.report {m : Type → Type} (typeName : String) : Converted m → Json
  | .value v =>
    let shown := if v.typeName = typeName then .object [("is", v.report)] else .text "another type"
    .object [("value", shown)]
  | .deferred d => .object [("lazy", .text d.key), ("target", .text d.target.display)]

variable {m : Type → Type} [Monad m]

def Provider.report (p : Provider m) : m Json := do
  return .object [("name", .text p.name), ("ordinal", .integer (← p.ordinal)),
    ("default_ordinal", .integer (← p.defaultOrdinal)), ("scannable", .bool p.scannable),
    ("writable", .bool p.isWritable)]

def Provider.reportKey (p : Provider m) (key : String) : m Json := do
  let target := p.target
  let routed := ("routed", .list [.text target.name, .bool (target.accepts (.put key "")),
    .bool (target.accepts (.remove key))])
  match p.access with
  | none => return .object [routed]
  | some access =>
    let address := match ← access.backend.run with
      | .ok a => Json.text a
      | .error e => e.report
    return .object [routed, ("uri", address), ("writable", .bool (access.acceptsPut key)),
      ("removable", .bool (access.acceptsRemoval key)), ("exists", .bool (← p.holds key))]

def HostSource.reportKey (s : HostSource m) (key : String) : m Json := do
  let texts ← s.properties
  return .object [("name", .text s.name), ("ordinal", .integer (← s.ordinal)),
    ("properties", texts.reportTexts), ("names", .texts texts.keys),
    ("value", .optional (← s.value key))]

def HostSource.reportAll (sources : List (HostSource m)) : m Json := do
  return .list (← sources.mapM fun s => return Json.list [.text s.name, .integer (← s.ordinal)])

/-- The members of the report of a context; `counted` is a type whose converters are counted. -/
def Context.report (c : Context m) (counted : String) : m (List (String × Json)) := do
  let providers ← c.providers.mapM fun p => do
    return Json.list [.text p.name, .integer (← p.ordinal), .bool p.scannable]
  let converters := c.converters.map fun (t, cs) =>
    Json.list [.text (Descriptor.plain t).display, .integer cs.length]
  return [("providers", .list providers), ("filters", .texts (c.filters.map (·.name))),
    ("converters", .list converters), ("entries", .integer c.converters.toList.length),
    (counted, .integer (ConverterTable.find counted c.converters).length),
    ("debug", .text c.describe)]

def Configuration.reportSections (c : Configuration m) :
    ExceptT ConfigError m (List (String × Json)) := do
  let direct ← c.sectionNames
  let all ← c.transitiveSectionNames
  return [("direct", .texts direct.keys), ("transitive", .texts all.keys)]

def View.report (v : View m) : m Json := do
  let names ← match v.host? with
    | some h => do pure (Json.texts (← h.propertyNames))
    | none => pure .null
  return .object [("combined", .optional v.combinedName?), ("host_names", names),
    ("context", .bool v.isPlain)]

def Environment.report (e : Environment m) : m Json := do
  let names (l : List (Provider m)) := Json.texts (l.map (·.name))
  return .object [("name", .text e.name), ("defaults", names (← e.makeProviders)),
    ("discovered", names e.discoveredProviders),
    ("converters", .texts (e.defaultConverters.map (·.targetText))),
    ("filters", .texts (e.defaultFilters.map (·.name))), ("debug", .text e.describe)]

end LayeredConfig

import LayeredConfig.Converter
import LayeredConfig.Filter
import LayeredConfig.Provider

/-!
Contexts: the providers in effective order, the filters, and the converters by target type.
A key is looked up on the providers one after another; an enumeration merges whole providers.
-/

namespace LayeredConfig

/-- How two contexts are combined when both have a part of one name: the other one's part wins, or
the existing one. -/
inductive MergePolicy
  | override | keepExisting
  deriving DecidableEq, Repr

/-- Converters by target type, the types in the order of their first converter. -/
abbrev ConverterTable (m : Type → Type) := List (String × List (Converter m))

namespace ConverterTable

variable {m : Type → Type}

/-- The converters for a type, in the order in which they are tried. -/
def find (typeName : String) : ConverterTable m → List (Converter m)
  | [] => []
  | (t, cs) :: rest => if t = typeName then cs else find typeName rest

def add (c : Converter m) : ConverterTable m → ConverterTable m
  | [] => [(c.target, [c])]
  | (t, cs) :: rest => if t = c.target then (t, cs ++ [c]) :: rest else (t, cs) :: add c rest

def ofList (converters : List (Converter m)) : ConverterTable m :=
  converters.foldl (fun table c => add c table) []

def types (table : ConverterTable m) : List String := table.map (·.1)

def toList (table : ConverterTable m) : List (Converter m) := table.flatMap (·.2)

/-- The converters of both tables, the first one's before the second one's for each type. -/
def merge (first second : ConverterTable m) : List (Converter m) :=
  let types := (first.types ++ second.types).eraseDups
  types.flatMap fun t => find t first ++ find t second

end ConverterTable

/-- A registry of providers, filters and converters. The providers stand in effective order. -/
structure Context (m : Type → Type) where
  tag : Tag
  providers : List (Provider m)
  filters : List (Filter m)
  converters : ConverterTable m

namespace Context

variable {m : Type → Type}

def empty (tag : Tag) : Context m := ⟨tag, [], [], []⟩

/-- Refuses empty and repeated names; `seen` holds the names before. -/
def checkNames (seen : List String) : List (Provider m) → Except ConfigError Unit
  | [] => .ok ()
  | p :: rest =>
    if p.name = "" then .error (.argument .emptyProviderName)
    else if seen.contains p.name then .error (.argument (.duplicateProvider p.name))
    else checkNames (p.name :: seen) rest

/-- Whether a ranked provider stands before another: by descending ordinal, then by name. -/
def before (a b : Int × Provider m) : Bool :=
  b.1 < a.1 || (a.1 = b.1 && a.2.name ≤ b.2.name)

def rank [Monad m] : List (Provider m) → m (List (Int × Provider m))
  | [] => pure []
  | p :: rest => do
    let n ← p.ordinal
    return (n, p) :: (← rank rest)

/-- The providers in effective order, by their ordinals at this time. -/
def sort [Monad m] (providers : List (Provider m)) : m (List (Provider m)) := do
  return ((← rank providers).mergeSort before).map (·.2)

def build [Monad m] (tag : Tag) (providers : List (Provider m)) (filters : List (Filter m))
    (converters : List (Converter m)) : ExceptT ConfigError m (Context m) := do
  checkNames [] providers
  let sorted ← ExceptT.lift (sort providers)
  return ⟨tag, sorted, filters, .ofList converters⟩

def provider? (c : Context m) (name : String) : Option (Provider m) :=
  c.providers.find? (·.name = name)

/-- The answer of the first provider that has one; a provider that fails is passed over. -/
def firstAnswer [Monad m] (key : String) : List (Provider m) → m (Option PropertyValue)
  | [] => pure none
  | p :: rest => do
    match ← (p.get key).run with
    | .ok (some v) => pure (some v)
    | _ => firstAnswer key rest

def getRaw [Monad m] (c : Context m) (key : String) : m (Option PropertyValue) :=
  firstAnswer key c.providers

def resolve [Monad m] (c : Context m) (key : String) : m (Option PropertyValue) := do
  match ← c.getRaw key with
  | some v => Filter.chain ⟨key, c.getRaw, none⟩ c.filters v
  | none => pure none

def sourceFailure (name : String) : ConfigError → ConfigError
  | .source p t c => .source p t c
  | e => .source name e.message (some (.error e))

def addMissing {β : Type} (m : KeyMap β) (entries : List (String × β)) : KeyMap β :=
  entries.foldl (fun m e => if m.contains e.1 then m else m.insert e.1 e.2) m

/-- Merges the entries of the scannable providers; the first one that has a key counts. -/
def collect [Monad m] (acc : KeyMap PropertyValue) :
    List (Provider m) → ExceptT ConfigError m (KeyMap PropertyValue)
  | [] => pure acc
  | p :: rest =>
    if p.scannable then do
      let entries ← tryCatch p.properties fun e => throw (sourceFailure p.name e)
      collect (addMissing acc entries.entries) rest
    else collect acc rest

/-- Filters entries in the order of their keys; each sees the entries that are filtered before. -/
def filterAll [Monad m] (c : Context m) (resolved : KeyMap PropertyValue) :
    List (String × PropertyValue) → m (KeyMap PropertyValue)
  | [] => pure resolved
  | (key, v) :: rest => do
    match ← Filter.chain ⟨key, c.getRaw, some resolved⟩ c.filters v with
    | some v => filterAll c (resolved.insert key v) rest
    | none => filterAll c resolved rest

/-- All keys of the scannable providers with their filtered values. -/
def resolveAll [Monad m] (c : Context m) : ExceptT ConfigError m (KeyMap PropertyValue) := do
  let raw ← collect .empty c.providers
  ExceptT.lift (c.filterAll .empty raw.entries)

def replace (p : Provider m) (l : List (Provider m)) : List (Provider m) :=
  l.map fun q => if q.name = p.name then p else q

def unite (policy : MergePolicy) (a b : List (Provider m)) : List (Provider m) :=
  b.foldl (fun l p =>
    if l.any (·.name = p.name) then
      match policy with
      | .override => replace p l
      | .keepExisting => l
    else l ++ [p]) a

def combine [Monad m] (tag : Tag) (policy : MergePolicy) (a b : Context m) :
    ExceptT ConfigError m (Context m) :=
  let converters := match policy with
    | .override => ConverterTable.merge b.converters a.converters
    | .keepExisting => ConverterTable.merge a.converters b.converters
  build tag (unite policy a.providers b.providers) (a.filters ++ b.filters) converters

def describe (c : Context m) : String :=
  Text.describeRecord "ConfigurationContext"
    [("providers", Text.describeList (c.providers.map fun p => Text.quoted p.name)),
      ("filters", Text.describeList (c.filters.map fun f => Text.quoted f.name)),
      ("converter_types", Text.describeList
        (c.converters.types.map fun t => Text.quoted (Descriptor.plain t).display))]

end Context

end LayeredConfig

import LayeredConfig.Configuration

/-!
Derived configurations: the projection to a section, the selection of some entries, the renaming of
keys, and the overlay of several configurations. All but the overlay keep the context, so typed
look-ups and changes go on working through them.
-/

namespace LayeredConfig

namespace View

variable {m : Type → Type} [Monad m]

/-- The entries of a map that lie under a text, known by what follows it. -/
def dropPrefixes (lead : List Char) (acc : KeyMap PropertyValue) :
    List (String × PropertyValue) → Except ConfigError (KeyMap PropertyValue)
  | [] => .ok acc
  | (key, v) :: rest =>
    match Text.dropPrefix? lead key.toList with
    | some (c :: cs) => do
      let key := String.ofList (c :: cs)
      dropPrefixes lead (acc.insert key (← v.withKey key)) rest
    | _ => dropPrefixes lead acc rest

/-- Shows the keys that start with a text, known by what follows it if `strip` is set. -/
def project (tag : Tag) (lead : List Char) (strip : Bool) (v : View m) : View m where
  tag := tag
  get key := do
    if strip then
      match ← v.get (String.ofList lead ++ key) with
      | some found => return some (← found.withKey key)
      | none => return none
    else if lead.isPrefixOf key.toList then v.get key
    else return none
  properties := do
    let shown ← v.properties
    if strip then dropPrefixes lead .empty shown.entries
    else return shown.filter fun key _ => lead.isPrefixOf key.toList
  kind := .derived

/-- Shows the values that pass a test of their own key and of their payload; an absent payload is
tested as the empty text. -/
def select (tag : Tag) (test : String → String → Bool) (v : View m) : View m where
  tag := tag
  get key := do return (← v.get key).filter fun found => test found.key (found.value.getD "")
  properties := do
    return (← v.properties).filter fun _ found => test found.key (found.value.getD "")
  kind := .derived

/-- Renames keys; of two keys with one new name the smaller one counts, and a key without a new
name, or with an empty one, is dropped. -/
def renameEntries (rename : String → Option String) (acc : KeyMap PropertyValue) :
    List (String × PropertyValue) → Except ConfigError (KeyMap PropertyValue)
  | [] => .ok acc
  | (key, v) :: rest =>
    match rename key with
    | some name =>
      if name = "" || acc.contains name then renameEntries rename acc rest
      else do renameEntries rename (acc.insert name (← v.withKey name)) rest
    | none => renameEntries rename acc rest

def rename (tag : Tag) (rename : String → Option String) (v : View m) : View m where
  tag := tag
  get key := do return (← renameEntries rename .empty (← v.properties).entries).get? key
  properties := do renameEntries rename .empty (← v.properties).entries
  kind := .derived

def firstShown (key : String) : List (View m) → ExceptT ConfigError m (Option PropertyValue)
  | [] => return none
  | v :: rest => do
    match ← v.get key with
    | some found => return some found
    | none => firstShown key rest

/-- The entries of views laid one over the other, the last one on top. -/
def overlayAll (acc : KeyMap PropertyValue) :
    List (View m) → ExceptT ConfigError m (KeyMap PropertyValue)
  | [] => return acc
  | v :: rest => do overlayAll (acc.overlay (← v.properties)) rest

def combine (tag : Tag) (name : String) (layers : List (View m)) : View m where
  tag := tag
  get key := firstShown key layers.reverse
  properties := overlayAll .empty layers
  kind := .combined name

end View

namespace Configuration

variable {m : Type → Type} [Monad m]

/-- The part of a configuration that lies in a section, with the section stripped from the keys or
not. The empty section without stripping is the configuration itself. -/
def inSection (tag : Tag) (sect : String) (strip : Bool) (c : Configuration m) : Configuration m :=
  let lead := Key.sectionPrefix sect.toList
  if lead = [] && !strip then c else c.withView (c.view.project tag lead strip)

def select (tag : Tag) (test : String → String → Bool) (c : Configuration m) : Configuration m :=
  c.withView (c.view.select tag test)

/-- The part of a configuration that lies in one of several sections. -/
def inSections (tag : Tag) (sections : List String) (c : Configuration m) : Configuration m :=
  c.select tag fun key _ => Key.inSections key sections

def rename (tag : Tag) (rename : String → Option String) (c : Configuration m) : Configuration m :=
  c.withView (c.view.rename tag rename)

/-- Combines contexts one after another, each new one overriding. -/
def combineContexts (tag : Tag) (acc : Context m) :
    List (Configuration m) → ExceptT ConfigError m (Context m)
  | [] => return acc
  | c :: rest => do combineContexts tag (← Context.combine tag .override acc c.context) rest

/-- Lays configurations one over the other, the last one on top. -/
def combine (tag : Tag) (name : String) (configs : List (Configuration m)) :
    ExceptT ConfigError m (Configuration m) := do
  match configs with
  | [] => throw (.argument .emptyCombination)
  | c :: rest =>
    let context ← combineContexts tag { c.context with tag } rest
    return ⟨context, .combine tag name (configs.map (·.view))⟩

end Configuration

end LayeredConfig

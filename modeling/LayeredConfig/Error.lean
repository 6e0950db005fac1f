import LayeredConfig.Literal.Fault

/-!
What can go wrong in the engine. An error says what happened; `ConfigError.message` is the only
place where it gets its wording.
-/

namespace LayeredConfig

/-- The kinds of failures of the file system. -/
inductive IoKind
  | notFound | isDirectory | notDirectory | invalidData | permissionDenied | storageFull
  deriving DecidableEq, Repr

def IoKind.name : IoKind → String
  | .notFound => "NotFound"
  | .isDirectory => "IsADirectory"
  | .notDirectory => "NotADirectory"
  | .invalidData => "InvalidData"
  | .permissionDenied => "PermissionDenied"
  | .storageFull => "StorageFull"

/-- Why an argument is rejected before anything changes. -/
inductive ArgumentFault
  | emptyKey
  | emptySource (key : String)
  | emptyProviderName
  | duplicateProvider (name : String)
  | keyPattern (pattern : String)
  | nameExpression (expression : String)
  | readOnly (provider : String)
  | notWritable (provider : String)
  | noBackend (provider : String) (fault : UrlFault)
  | wrongTarget (target wanted : String)
  | foreignValue (target : String)
  | foreignHostValue (key target : String)
  | emptyCombination
  | builderGone
  | because (text : String)
  deriving DecidableEq, Repr

/-- The wording of a rejection. What makes a pattern invalid is left open. -/
def ArgumentFault.message : ArgumentFault → String
  | .emptyKey => "key must not be empty"
  | .emptySource key => s!"source of '{key}' must not be empty"
  | .emptyProviderName => "provider name must not be empty"
  | .duplicateProvider name => s!"duplicate provider name '{name}'"
  | .keyPattern pattern => s!"invalid key pattern '{pattern}': <regex>"
  | .nameExpression expression => s!"invalid provider name expression '{expression}': <regex>"
  | .readOnly provider => s!"provider '{provider}' is read-only"
  | .notWritable provider => s!"provider '{provider}' is not writable"
  | .noBackend provider fault => s!"no backend URI for provider '{provider}': {fault.message}"
  | .wrongTarget target wanted => s!"target {target} does not describe {wanted}"
  | .foreignValue target => s!"converter for {target} produced a value of another type"
  | .foreignHostValue key target => s!"value of '{key}' is not a {target}"
  | .emptyCombination => "combine needs at least one configuration"
  | .builderGone => "the wrapped builder was handed out"
  | .because text => text

mutual

/-- A failure of the engine. -/
inductive ConfigError
  | keyNotFound (key : String)
  | conversionFailed (key target value : String) (formats : List String)
  | source (provider text : String) (cause : Option Cause)
  | parse (text : String) (cause : Option Cause)
  | commitFailed (backend : String) (committed cancelled : List String) (cause : ConfigError)
  | requestClosed (request backend : String)
  | argument (fault : ArgumentFault)
  | adapterRejection (option target : String)
  | inputOutput (kind : IoKind)

/-- What stands behind a failure. -/
inductive Cause
  | text (text : String)
  | inputOutput (kind : IoKind)
  | error (error : ConfigError)

end

namespace ConfigError

def message : ConfigError → String
  | .keyNotFound key => s!"Configuration key not found: {key}"
  | .conversionFailed key target value formats =>
    s!"Cannot convert value '{value}' of key '{key}' to type {target}, supported formats: [" ++
      ", ".intercalate formats ++ "]"
  | .source provider text _ => s!"Property provider '{provider}' error: {text}"
  | .parse text _ => s!"Failed to parse configuration: {text}"
  | .commitFailed backend committed cancelled cause =>
    s!"Commit to '{backend}' failed (committed: [" ++ ", ".intercalate committed ++
      "], cancelled: [" ++ ", ".intercalate cancelled ++ "]): " ++ cause.message
  | .requestClosed request backend =>
    s!"Change request {request} for '{backend}' is already closed"
  | .argument fault => s!"Invalid argument: {fault.message}"
  | .adapterRejection option target =>
    s!"'{option}' is not supported by the {target} side of the adapter bridge"
  | .inputOutput kind => s!"I/O error: {kind.name}"

/-- Whether a failure belongs to the family of configuration failures: missing values, failed
conversions, failed backends. Misuse by the caller does not. -/
def isConfigFailure : ConfigError → Bool
  | .requestClosed .. | .argument _ | .adapterRejection .. => false
  | _ => true

def requireKey (key : String) : Except ConfigError Unit :=
  if key = "" then .error (.argument .emptyKey) else .ok ()

@[simp] theorem requireKey_ok {key : String} (h : key ≠ "") : requireKey key = .ok () := by
  simp [requireKey, h]

@[simp] theorem requireKey_empty : requireKey "" = .error (.argument .emptyKey) := rfl

end ConfigError

end LayeredConfig

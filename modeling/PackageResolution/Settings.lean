import PackageResolution.Action.Files
import PackageResolution.Certificate
import PackageResolution.Json.Decode
import PackageResolution.Json.Print
import PackageResolution.Module.Key
import PackageResolution.Security
import PackageResolution.Storage.Basic

/-!
# Settings

Settings come from a file, usually the one in the user's home directory, and the
environment can override the place of the cache.  They say where packages are kept,
what is allowed, and where modules are searched.
-/

namespace PackageResolution

/-- Settings of package resolution. -/
structure Settings where
  /-- The cache directory. -/
  cacheDirectory : Option Path
  /-- Whether packages are kept in memory only. -/
  noCache : Bool
  /-- Files with certificates to be trusted besides those of the system. -/
  certificates : List Path
  /-- How many seconds a server may take. -/
  timeout : Option Nat
  /-- The patterns of modules that may be loaded. -/
  allowedModules : Option (List String)
  /-- The patterns of resources that may be read. -/
  allowedResources : Option (List String)
  /-- The directory that local files must be in. -/
  rootDirectory : Option Path
  /-- The directories in which modules are searched. -/
  modulePath : List Path
  deriving DecidableEq, Repr

namespace Settings

/-- The settings that leave everything as it is. -/
def default : Settings :=
  { cacheDirectory := none, noCache := false, certificates := [], timeout := none,
    allowedModules := none, allowedResources := none, rootDirectory := none,
    modulePath := [] }

/-! ## The file -/

/-- The names of the fields in their written order. -/
def fieldNames : List String :=
  ["cacheDir", "noCache", "caCertificates", "httpTimeoutSecs", "allowedModules",
    "allowedResources", "rootDir", "modulePath"]

/-- A path in a document. -/
def pathDecoder : Json.Decoder Path := fun depth json =>
  (Json.Decoder.text depth json).map Path.mk

/-- Settings in a document.  A field that is not given has its default. -/
def decoder : Json.Decoder Settings := fun depth json => do
  let fields ← Json.Decoder.fields fieldNames depth json
  let nullable {α : Type} (name : String) (decoder : Json.Decoder α) :=
    fields.optional name (Json.Decoder.nullable decoder) none
  return {
    cacheDirectory := ← nullable "cacheDir" pathDecoder
    noCache := ← fields.optional "noCache" Json.Decoder.bool false
    certificates := ← fields.optional "caCertificates" (Json.Decoder.list pathDecoder) []
    timeout := ← nullable "httpTimeoutSecs" (Json.Decoder.natBelow (Nat.pow 2 64))
    allowedModules := ← nullable "allowedModules" (Json.Decoder.list Json.Decoder.text)
    allowedResources := ← nullable "allowedResources" (Json.Decoder.list Json.Decoder.text)
    rootDirectory := ← nullable "rootDir" pathDecoder
    modulePath := ← fields.optional "modulePath" (Json.Decoder.list pathDecoder) [] }

/-- A value that may be absent. -/
def orNull {α : Type} (toJson : α → Json) : Option α → Json
  | some value => toJson value
  | none => .null

/-- The written form of a list of texts. -/
def textsToJson (texts : List String) : Json :=
  .array (texts.map Json.ofText)

/-- The written form of a path. -/
def pathToJson (path : Path) : Json :=
  .ofText path.text

/-- The written form of settings. -/
def toJson (settings : Settings) : Json :=
  .ofMembers [
    ("cacheDir", orNull pathToJson settings.cacheDirectory),
    ("noCache", .bool settings.noCache),
    ("caCertificates", .array (settings.certificates.map pathToJson)),
    ("httpTimeoutSecs", orNull Json.ofNat settings.timeout),
    ("allowedModules", orNull textsToJson settings.allowedModules),
    ("allowedResources", orNull textsToJson settings.allowedResources),
    ("rootDir", orNull pathToJson settings.rootDirectory),
    ("modulePath", .array (settings.modulePath.map pathToJson))]

/-- The text of settings. -/
def text (settings : Settings) : String :=
  settings.toJson.text

/-- The settings in the file at `path` whose contents are `text`. -/
def parse (path : Path) (text : String) : Result Settings :=
  match Json.Decoder.run decoder (Json.Input.ofText text) with
  | .ok settings => .ok settings
  | .error detail => .error (.invalidArgument (.badSettings path.text detail))

/-- The settings in a file. -/
def load (path : Path) : Attempt Settings := do
  Attempt.ofResult (parse path (← Attempt.readText path))

/-! ## The surroundings -/

/-- A setting of the environment that is not empty. -/
def environment? (name : String) : Action (Option String) := do
  return (← Action.request (.variable name)).filter (· ≠ "")

/-- The directory of the user's settings and cache. -/
def homeDirectory? : Action (Option Path) := do
  return (← environment? "HOME").map fun home => (Path.mk home).join ⟨".pkl"⟩

/-- The settings with what the environment overrides. -/
def withEnvironment (settings : Settings) : Action Settings := do
  match ← environment? "PKL_CACHE_DIR" with
  | some directory => return { settings with cacheDirectory := some ⟨directory⟩ }
  | none => return settings

/-- The settings of the user, with what the environment overrides. -/
def loadFromHome : Attempt Settings := do
  match ← (homeDirectory? : Action _) with
  | none => return ← (default.withEnvironment : Action _)
  | some home =>
      let path := home.join ⟨"settings.json"⟩
      let settings ← if ← (Action.exists? path : Action _) then load path else pure default
      return ← (settings.withEnvironment : Action _)

/-- The cache directory in use, unless packages are kept in memory. -/
def effectiveCache (settings : Settings) : Action (Option Path) := do
  if settings.noCache then return none
  else
    match settings.cacheDirectory with
    | some directory => return some directory
    | none => return (← homeDirectory?).map (·.join ⟨"cache"⟩)

/-! ## What the settings describe -/

/-- The patterns of an access, which are the default ones unless some are given. -/
def patterns (written : Option (List String)) (starts : List String) :
    Result (List Pattern) :=
  match written with
  | some written => written.mapM Policy.startPattern
  | none => .ok (Policy.startingWith starts)

/-- What is allowed. -/
def security (settings : Settings) : Result Security := do
  let modules ← patterns settings.allowedModules Policy.defaultModules
  let resources ← patterns settings.allowedResources Policy.defaultResources
  let policy : Policy := { modules, resources, rootDirectory := none }
  match settings.rootDirectory with
  | some directory => return .standard (policy.withRootDirectory directory)
  | none => return .standard policy

/-- Where packages are kept. -/
def storage (settings : Settings) : Attempt Storage := do
  match ← (settings.effectiveCache : Action _) with
  | some cache => Storage.openDisk cache
  | none => return .memory

/-- Checks that a file holds a certificate. -/
def checkCertificate (path : Path) : Attempt Unit := do
  let file ← Attempt.files (.readCertificates path.text) (Action.request (.read path))
  unless Certificate.isCertificateFile file do
    throw (.invalidArgument (.badCertificate path.text "no certificate"))

/-- Checks that servers can be asked with these settings. -/
def checkCertificates (settings : Settings) : Attempt Unit :=
  settings.certificates.forM checkCertificate

/-- The context of modules in which `resolver` finds packages. -/
def context (settings : Settings) (resolver : Resolver) : ModuleContext :=
  let context := ModuleContext.empty.withResolver resolver
  if settings.modulePath = [] then context
  else context.withModulePath ⟨settings.modulePath⟩

end Settings

/-- Why a server is not even asked for an address, if it is not: only encrypted
connections are made. -/
def FetchError.refusal? (url : String) : Option FetchError :=
  if Text.startsWith "https://" url then none else some (.unsupportedScheme url)

end PackageResolution

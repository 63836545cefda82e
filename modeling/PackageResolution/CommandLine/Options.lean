import PackageResolution.Settings
import PackageResolution.Text.Decimal

/-!
# Options of the command line

A command has a level, and some levels only lead to other ones.  Options that concern
every command can be given at each level; the innermost level that has one decides.
An option with one value can be given once at each level.
-/

namespace PackageResolution.CommandLine

/-- A level of commands. -/
inductive Level
  /-- Before the first command. -/
  | top
  /-- After `project`. -/
  | project
  /-- After `project resolve`. -/
  | resolveProjects
  /-- After `download-package`. -/
  | downloadPackages
  /-- After `cat`. -/
  | printAsset
  /-- After `resolve-import`. -/
  | resolveImport
  deriving DecidableEq, Repr

/-- An option without a value. -/
inductive Flag
  | noCache
  | noTransitive
  | help
  | version
  deriving DecidableEq, Repr

/-- An option with a value. -/
inductive Setting
  | settings
  | cacheDirectory
  | certificates
  | timeout
  | allowedModules
  | allowedResources
  | rootDirectory
  | modulePath
  | projectDirectory
  deriving DecidableEq, Repr

namespace Level

/-- The level that a command leads to. -/
def command? : Level → String → Option Level
  | .top, "project" => some .project
  | .top, "download-package" => some .downloadPackages
  | .top, "cat" => some .printAsset
  | .top, "resolve-import" => some .resolveImport
  | .project, "resolve" => some .resolveProjects
  | _, _ => none

/-- Whether a level only leads to other ones. -/
def isGroup : Level → Bool
  | .top => true
  | .project => true
  | .resolveProjects => false
  | .downloadPackages => false
  | .printAsset => false
  | .resolveImport => false

/-- The option without a value that a level has under a name. -/
def flag? : Level → String → Option Flag
  | _, "no-cache" => some .noCache
  | _, "help" => some .help
  | .top, "version" => some .version
  | .downloadPackages, "no-transitive" => some .noTransitive
  | _, _ => none

/-- The option that a level has under a letter. -/
def letterFlag? : Level → Char → Option Flag
  | _, 'h' => some .help
  | .top, 'V' => some .version
  | _, _ => none

/-- The option with a value that a level has under a name. -/
def setting? : Level → String → Option Setting
  | _, "settings" => some .settings
  | _, "cache-dir" => some .cacheDirectory
  | _, "ca-certificates" => some .certificates
  | _, "timeout" => some .timeout
  | _, "allowed-modules" => some .allowedModules
  | _, "allowed-resources" => some .allowedResources
  | _, "root-dir" => some .rootDirectory
  | _, "module-path" => some .modulePath
  | .printAsset, "project-dir" => some .projectDirectory
  | .resolveImport, "project-dir" => some .projectDirectory
  | _, _ => none

/-- Whether a level takes another word after some words. -/
def takesWord (level : Level) (count : Nat) : Bool :=
  match level with
  | .printAsset => count < 1
  | .resolveImport => count < 2
  | _ => true

end Level

/-- Why a command line cannot be understood. -/
inductive UsageError
  | missingCommand
  | unknownCommand (word : String)
  | unknownOption (name : String)
  | missingValue (name : String)
  | unexpectedValue (name : String)
  | repeatedOption (name : String)
  | badValue (name value : String)
  | missingWord
  | unexpectedWord (word : String)
  deriving DecidableEq, Repr

/-- The wording of a misuse. -/
def UsageError.message : UsageError → String
  | .missingCommand => "a command is missing"
  | .unknownCommand word => s!"unknown command `{word}`"
  | .unknownOption name => s!"unknown option `{name}`"
  | .missingValue name => s!"option `{name}` needs a value"
  | .unexpectedValue name => s!"option `{name}` has no value"
  | .repeatedOption name => s!"option `{name}` was given more than once"
  | .badValue name value => s!"invalid value `{value}` for `{name}`"
  | .missingWord => "an argument is missing"
  | .unexpectedWord word => s!"unexpected argument `{word}`"

/-- Options that concern every command. -/
structure Options where
  /-- The settings file. -/
  settings : Option Path
  /-- The cache directory. -/
  cacheDirectory : Option Path
  /-- Whether packages are kept in memory only. -/
  noCache : Bool
  /-- Files with certificates. -/
  certificates : List Path
  /-- How many seconds a server may take. -/
  timeout : Option Nat
  /-- Patterns of modules that may be loaded. -/
  allowedModules : List String
  /-- Patterns of resources that may be read. -/
  allowedResources : List String
  /-- The directory that local files must be in. -/
  rootDirectory : Option Path
  /-- Directories in which modules are searched. -/
  modulePath : List Path
  deriving DecidableEq, Repr

namespace Options

/-- No options. -/
def empty : Options :=
  { settings := none, cacheDirectory := none, noCache := false, certificates := [],
    timeout := none, allowedModules := [], allowedResources := [], rootDirectory := none,
    modulePath := [] }

/-- The values of an inner level, or those of an outer one if there are none. -/
def innermost {α : Type} (inner outer : List α) : List α :=
  if inner.isEmpty then outer else inner

/-- The options of an inner level, completed by those of an outer one. -/
def completedBy (inner outer : Options) : Options :=
  { settings := inner.settings.or outer.settings
    cacheDirectory := inner.cacheDirectory.or outer.cacheDirectory
    noCache := inner.noCache || outer.noCache
    certificates := innermost inner.certificates outer.certificates
    timeout := inner.timeout.or outer.timeout
    allowedModules := innermost inner.allowedModules outer.allowedModules
    allowedResources := innermost inner.allowedResources outer.allowedResources
    rootDirectory := inner.rootDirectory.or outer.rootDirectory
    modulePath := innermost inner.modulePath outer.modulePath }

/-- The settings with what the options override. -/
def override (options : Options) (settings : Settings) : Settings :=
  { settings with
    cacheDirectory := options.cacheDirectory.or settings.cacheDirectory
    noCache := options.noCache || settings.noCache
    certificates := settings.certificates ++ options.certificates
    timeout := options.timeout.or settings.timeout
    allowedModules :=
      if options.allowedModules.isEmpty then settings.allowedModules
      else some options.allowedModules
    allowedResources :=
      if options.allowedResources.isEmpty then settings.allowedResources
      else some options.allowedResources
    rootDirectory := options.rootDirectory.or settings.rootDirectory
    modulePath := settings.modulePath ++ options.modulePath }

end Options

/-- What is given at one level. -/
structure Given where
  /-- Options that concern every command. -/
  options : Options
  /-- The directory from which the manifest of the project is looked for. -/
  projectDirectory : Option Path
  /-- Whether dependencies are left out. -/
  noTransitive : Bool
  /-- The words that are no options. -/
  words : List String
  deriving DecidableEq, Repr

namespace Given

/-- Nothing. -/
def nothing : Given :=
  { options := .empty, projectDirectory := none, noTransitive := false, words := [] }

/-- The value of an option that was not given so far. -/
def once {α : Type} (name : String) (before : Option α) (value : α) :
    Except UsageError (Option α) :=
  match before with
  | none => .ok (some value)
  | some _ => .error (.repeatedOption name)

/-- A path that is given; the empty text is none. -/
def path (name value : String) : Except UsageError Path :=
  if value = "" then .error (.badValue name value) else .ok ⟨value⟩

/-- A number of seconds that is given.  A plus sign before it is passed over. -/
def seconds (name value : String) : Except UsageError Nat :=
  match Text.decimal? ((Text.dropStart? "+" value).getD value) with
  | some seconds =>
      if seconds < Nat.pow 2 64 then .ok seconds else .error (.badValue name value)
  | none => .error (.badValue name value)

/-- What is given with an option and its value. -/
def add (given : Given) (name value : String) : Setting → Except UsageError Given
  | .settings => do
      let settings ← once name given.options.settings (← path name value)
      return { given with options := { given.options with settings } }
  | .cacheDirectory => do
      let cacheDirectory ← once name given.options.cacheDirectory (← path name value)
      return { given with options := { given.options with cacheDirectory } }
  | .certificates => do
      let certificates := given.options.certificates ++ [← path name value]
      return { given with options := { given.options with certificates } }
  | .timeout => do
      let timeout ← once name given.options.timeout (← seconds name value)
      return { given with options := { given.options with timeout } }
  | .allowedModules =>
      let allowedModules := given.options.allowedModules ++ Text.fields ',' value
      .ok { given with options := { given.options with allowedModules } }
  | .allowedResources =>
      let allowedResources := given.options.allowedResources ++ Text.fields ',' value
      .ok { given with options := { given.options with allowedResources } }
  | .rootDirectory => do
      let rootDirectory ← once name given.options.rootDirectory (← path name value)
      return { given with options := { given.options with rootDirectory } }
  | .modulePath => do
      let modulePath := given.options.modulePath ++ [← path name value]
      return { given with options := { given.options with modulePath } }
  | .projectDirectory => do
      let projectDirectory ← once name given.projectDirectory (← path name value)
      return { given with projectDirectory }

/-- What is given with another word. -/
def addWord (given : Given) (level : Level) (word : String) : Except UsageError Given :=
  if !level.takesWord given.words.length then .error (.unexpectedWord word)
  else if level = .resolveProjects ∧ word = "" then .error (.badValue "DIR" word)
  else .ok { given with words := given.words ++ [word] }

end Given

end PackageResolution.CommandLine

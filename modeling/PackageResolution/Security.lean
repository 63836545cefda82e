import PackageResolution.Pattern.Parse
import PackageResolution.Pattern.Search
import PackageResolution.Uri.File
import PackageResolution.Uri.Parse

/-!
# What may be loaded, imported and read

A policy answers three questions.  May a module be loaded: its identifier must begin
as one of the allowed patterns says.  May a resource be read: likewise, with patterns
of its own.  May one module import another: only if the imported one is not trusted
more, since it could do what the importing one may not.  A policy can also confine
local files to a directory; a file inside an archive counts as its archive.
-/

namespace PackageResolution

/-- What is allowed. -/
structure Policy where
  /-- The starts of the modules that may be loaded. -/
  modules : List Pattern
  /-- The starts of the resources that may be read. -/
  resources : List Pattern
  /-- The components of the directory that local files must be in. -/
  rootDirectory : Option (List Path.Component)
  deriving DecidableEq, Repr

/-- How far a module is trusted. -/
abbrev TrustLevel := Nat

/-- Whether a text is a scheme, whatever the case of its letters. -/
def Uri.hasScheme (uri : Uri) (scheme : String) : Bool :=
  uri.scheme.any (Text.sameIgnoringCase scheme)

/-- How far the module with an identifier is trusted: what the user types most, then
local files and archives, the module path, what comes from elsewhere, and last the
built-in modules, which everybody may import. -/
def Uri.trustLevel (uri : Uri) : TrustLevel :=
  if uri.hasScheme "repl" then 40
  else if uri.hasScheme "file" then if uri.host?.all (· = "") then 30 else 10
  else if uri.hasScheme "jar" then 30
  else if uri.hasScheme "modulepath" then 20
  else if uri.hasScheme "pkl" then 0
  else 10

/-- The path of the archive that an identifier leads into, if it is a local file. -/
def Uri.archivePath? (uri : Uri) : Option Path :=
  match Uri.parse (Uri.beforeMark '!' uri.path).1 with
  | .error _ => none
  | .ok archive =>
      match archive.toPath with
      | .ok path => path
      | .error _ => none

/-- The local file that has to be inside the root directory, if the identifier leads
to one. -/
def Uri.confinedPath? (uri : Uri) : Result (Option Path) :=
  if uri.hasScheme "file" then uri.toPath
  else if uri.hasScheme "jar" then .ok uri.archivePath?
  else .ok none

namespace Policy

/-- The starts of the modules that may be loaded unless a policy says otherwise. -/
def defaultModules : List String :=
  ["repl:", "file:", "jar:file:", "modulepath:", "https:", "pkl:", "package:",
    "projectpackage:"]

/-- The starts of the resources that may be read unless a policy says otherwise. -/
def defaultResources : List String :=
  ["env:", "prop:", "file:", "modulepath:", "https:", "package:", "projectpackage:"]

/-- The patterns of the texts that begin with one of some texts. -/
def startingWith (starts : List String) : List Pattern :=
  starts.map fun start => (Pattern.literal start).atStart

/-- The policy with the default starts. -/
def default : Policy :=
  { modules := startingWith defaultModules
    resources := startingWith defaultResources
    rootDirectory := none }

/-- The pattern of the texts that begin as a written pattern says. -/
def startPattern (written : String) : Result Pattern :=
  match Pattern.parse? ("^(?:" ++ written ++ ")") with
  | some pattern => .ok pattern
  | none => .error (.invalidArgument (.badPattern written "regex parse error"))

/-- The policy with the given written patterns. -/
def ofPatterns (modules resources : List String) : Result Policy := do
  return { modules := ← modules.mapM startPattern
           resources := ← resources.mapM startPattern
           rootDirectory := none }

/-- The policy that also confines local files to a directory. -/
def withRootDirectory (policy : Policy) (directory : Path) : Policy :=
  { policy with rootDirectory := some directory.normalized }

/-- Whether one of some patterns allows an identifier. -/
def allows (patterns : List Pattern) (uri : Uri) : Bool :=
  patterns.any (·.occursIn uri.text)

/-- Checks that an identifier does not lead to a file outside of the root
directory. -/
def checkRootDirectory (policy : Policy) (access : Access) (uri : Uri) : Result Unit :=
  match policy.rootDirectory with
  | none => .ok ()
  | some root =>
      match uri.confinedPath? with
      | .error failure => .error failure
      | .ok none => .ok ()
      | .ok (some path) =>
          if root.isPrefixOf path.normalized then .ok ()
          else .error (.security (.outsideRootDirectory access uri.text))

/-- The patterns that an access is checked against. -/
def patternsFor (policy : Policy) : Access → List Pattern
  | .module => policy.modules
  | .resource => policy.resources

/-- Checks that an access to an identifier is allowed. -/
def check (policy : Policy) (access : Access) (uri : Uri) : Result Unit :=
  if allows (policy.patternsFor access) uri then policy.checkRootDirectory access uri
  else .error (.security (.notAllowed access uri.text))

end Policy

/-- What decides what is allowed. -/
structure Security where
  /-- Checks that a module may be loaded. -/
  checkModule : Uri → Result Unit
  /-- Checks that one module may import another. -/
  checkImport (importing imported : Uri) : Result Unit
  /-- Checks that a resource may be asked for. -/
  checkRequest : Uri → Result Unit
  /-- Checks that a resource may be read. -/
  checkResource : Uri → Result Unit

namespace Security

/-- Everything is allowed. -/
def unrestricted : Security where
  checkModule _ := .ok ()
  checkImport _ _ := .ok ()
  checkRequest _ := .ok ()
  checkResource _ := .ok ()

/-- A policy decides. -/
def standard (policy : Policy) : Security where
  checkModule := policy.check .module
  checkImport importing imported :=
    if importing.trustLevel < imported.trustLevel then
      .error (.security (.importOfHigherTrust imported.text importing.text))
    else .ok ()
  checkRequest := policy.check .resource
  checkResource := policy.check .resource

/-- Checks that an access to an identifier is allowed. -/
def checkAccess (security : Security) : Access → Uri → Result Unit
  | .module => security.checkModule
  | .resource => security.checkResource

@[simp]
theorem checkAccess_standard (policy : Policy) (access : Access) (uri : Uri) :
    (standard policy).checkAccess access uri = policy.check access uri := by
  cases access with
  | module => rfl
  | resource => rfl

/-- What a policy lets one module import is trusted no more. -/
theorem checkImport_standard_eq_ok_iff (policy : Policy) {importing imported : Uri} :
    (standard policy).checkImport importing imported = .ok () ↔
      imported.trustLevel ≤ importing.trustLevel := by
  simp [standard]

end Security

end PackageResolution

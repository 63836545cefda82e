import PackageResolution.Module.Path
import PackageResolution.Project.Manifest
import PackageResolution.Resolver
import PackageResolution.Uri.ModuleName
import PackageResolution.Uri.Resolve

/-!
# Where modules come from

A module has an origin: a file, the module path, a web server, a package, or the
program itself.  The origin decides how references in the module are followed and
where a search for it ends.  `ModuleContext.key` finds the origin of an identifier.
-/

namespace PackageResolution

/-- The origin of a module. -/
inductive ModuleKey
  /-- A file. -/
  | file (uri : Uri)
  /-- A directory of the module path. -/
  | onPath (uri : Uri) (modulePath : ModulePath)
  /-- A web server. -/
  | web (uri : Uri)
  /-- A package, which `resolver` finds. -/
  | package (asset : PackageAsset) (resolver : Resolver)
  /-- The program itself. -/
  | builtIn (uri : Uri)

namespace ModuleKey

/-- The identifier of a module. -/
def uri : ModuleKey → Uri
  | .file uri => uri
  | .onPath uri _ => uri
  | .web uri => uri
  | .package asset _ => asset.toUri
  | .builtIn uri => uri

/-- The name of a module. -/
def moduleName (key : ModuleKey) : String :=
  key.uri.moduleName

end ModuleKey

/-- What decides about the origins of modules. -/
structure ModuleContext where
  /-- The module path, if there is one. -/
  modulePath : Option ModulePath
  /-- What finds packages, if packages are loaded at all. -/
  resolver : Option Resolver
  /-- The manifest of the project and the project's directory, if there is one. -/
  project : Option (Manifest × Path)

namespace ModuleContext

/-- The context in which only files, web servers and the program are origins. -/
def empty : ModuleContext :=
  { modulePath := none, resolver := none, project := none }

/-- The context with a module path. -/
def withModulePath (context : ModuleContext) (modulePath : ModulePath) : ModuleContext :=
  { context with modulePath := some modulePath }

/-- The context with what finds packages. -/
def withResolver (context : ModuleContext) (resolver : Resolver) : ModuleContext :=
  { context with resolver := some resolver }

/-- The context with the manifest of the project in a directory. -/
def withProject (context : ModuleContext) (manifest : Manifest) (directory : Path) :
    ModuleContext :=
  { context with project := some (manifest, directory) }

/-- What finds packages, needed for `uri`. -/
def requireResolver (context : ModuleContext) (uri : Uri) : Result Resolver :=
  match context.resolver with
  | some resolver => .ok resolver
  | none => .error (.invalidArgument (.noPackageLoading uri.text))

/-- The asset that an identifier names. -/
def assetOf (uri : Uri) : Result PackageAsset :=
  (PackageAsset.parse uri.text).mapError .malformedUri

/-- The origin of a module on the module path. -/
def keyOnPath (context : ModuleContext) (uri : Uri) : Result ModuleKey :=
  match context.modulePath with
  | some modulePath => .ok (.onPath uri modulePath)
  | none => .error (.invalidArgument (.noModulePath uri.text))

/-- The origin of a module in a package. -/
def keyInPackage (context : ModuleContext) (uri : Uri) : Result ModuleKey := do
  let asset ← assetOf uri
  return .package asset (← context.requireResolver uri)

/-- The origin of a module in a dependency of the project. -/
def keyInDependency (context : ModuleContext) (uri : Uri) : Result ModuleKey := do
  match context.project with
  | none => throw (.invalidArgument (.noProject uri.text))
  | some (manifest, directory) =>
      let asset ← assetOf uri
      match ← manifest.resolveAsset asset directory with
      | .remote asset => return .package asset (← context.requireResolver uri)
      | .localFile path => return .file (← Uri.ofPath path)

/-- The origin of the module with an identifier. -/
def key (context : ModuleContext) (uri : Uri) : Result ModuleKey :=
  if uri.hasScheme "file" then .ok (.file uri)
  else if uri.hasScheme "http" || uri.hasScheme "https" then .ok (.web uri)
  else if uri.hasScheme "pkl" then .ok (.builtIn uri)
  else if uri.hasScheme "modulepath" then context.keyOnPath uri
  else if uri.hasScheme "package" then context.keyInPackage uri
  else if uri.hasScheme "projectpackage" then context.keyInDependency uri
  else .error (.invalidArgument (.unsupportedModule uri.text))

end ModuleContext

end PackageResolution

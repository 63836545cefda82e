import PackageResolution.Package.Metadata
import PackageResolution.Package.Uri

/-!
# Projects

A project is a directory with a descriptor.  The descriptor declares the package
that the project publishes, if it publishes one, and the dependencies of the
project: packages of a server, or other projects by their directories.
-/

namespace PackageResolution

/-- The package that a project publishes. -/
structure PackageDeclaration where
  /-- The name of the package. -/
  name : String
  /-- The identifier of the package without a version. -/
  baseUri : String
  /-- The version. -/
  version : String
  deriving DecidableEq, Repr

/-- The identifier of the declared package. -/
def PackageDeclaration.packageUri (declaration : PackageDeclaration) : Result PackageUri :=
  match PackageUri.parse s!"{declaration.baseUri}@{declaration.version}" with
  | .ok package => .ok package
  | .error cause => .error (.invalidProject (.badPackageDeclaration declaration.name cause))

/-- A package declaration in a document. -/
def PackageDeclaration.decoder : Json.Decoder PackageDeclaration := fun depth json => do
  let fields ← Json.Decoder.fields ["name", "baseUri", "version"] depth json
  return {
    name := ← fields.required "name" Json.Decoder.text
    baseUri := ← fields.required "baseUri" Json.Decoder.text
    version := ← fields.required "version" Json.Decoder.text }

/-- A dependency of a project. -/
inductive Dependency
  /-- A package of a server. -/
  | remote (package : PackageUri)
  /-- The project in a directory. -/
  | localProject (path : Path)
  deriving DecidableEq, Repr

/-- A project. -/
structure Project where
  /-- The directory of the project. -/
  directory : Path
  /-- The package that the project publishes. -/
  package : Option PackageDeclaration
  /-- The dependencies by name, in the order of their declaration. -/
  dependencies : List (String × Dependency)
  deriving DecidableEq, Repr

/-- A dependency as a descriptor writes it. -/
inductive DependencyDeclaration
  /-- A package by its identifier, with a checksum that replaces its pin. -/
  | remote (uri : String) (checksum : Option Checksum)
  /-- A project by its directory, taken from that of the descriptor. -/
  | localProject (path : String)
  deriving DecidableEq, Repr

namespace DependencyDeclaration

/-- A package in a descriptor. -/
def remoteDecoder : Json.Decoder DependencyDeclaration := fun depth json => do
  let fields ← Json.Decoder.namedFields ["uri", "checksums"] depth json
  return .remote (← fields.required "uri" Json.Decoder.text)
    (← fields.optional "checksums" (Json.Decoder.nullable Checksum.decoder) none)

/-- A project in a descriptor. -/
def localDecoder : Json.Decoder DependencyDeclaration := fun depth json => do
  let fields ← Json.Decoder.namedFields ["path"] depth json
  return .localProject (← fields.required "path" Json.Decoder.text)

/-- A dependency in a descriptor: a package if it can be read as one. -/
def decoder : Json.Decoder DependencyDeclaration :=
  Json.Decoder.whole fun depth json =>
    match remoteDecoder depth json with
    | .ok declaration => .ok declaration
    | .error _ => localDecoder depth json

/-- The dependency that is declared for the project in `directory`. -/
def resolve (directory : Path) : DependencyDeclaration → Except MalformedUri Dependency
  | .remote uri checksum =>
      (PackageUri.parse uri).map fun package =>
        .remote { package with pin := checksum.or package.pin }
  | .localProject path => .ok (.localProject (directory.join ⟨path⟩))

end DependencyDeclaration

namespace Project

/-- The name of a descriptor in the directory of its project. -/
def fileName : String := "PklProject.json"

/-- A package declaration and the declarations of dependencies in a document. -/
def decoder :
    Json.Decoder (Option PackageDeclaration × List (String × DependencyDeclaration)) :=
  fun depth json => do
    let fields ← Json.Decoder.fields ["package", "dependencies"] depth json
    return (
      ← fields.optional "package" (Json.Decoder.nullable PackageDeclaration.decoder) none,
      ← fields.optional "dependencies" (Json.Decoder.map DependencyDeclaration.decoder) [])

/-- The project in `directory` whose descriptor is `text`. -/
def parse (text : String) (directory : Path) : Result Project := do
  match Json.Decoder.run decoder (Json.Input.ofText text) with
  | .error detail =>
      throw (.invalidProject (.badDescriptor (directory.join ⟨fileName⟩).text detail))
  | .ok (package, declarations) =>
      let dependencies ← declarations.mapM fun entry =>
        match entry.2.resolve directory with
        | .ok dependency => .ok (entry.1, dependency)
        | .error cause => .error (Error.malformedUri cause)
      return { directory, package, dependencies }

end Project

end PackageResolution

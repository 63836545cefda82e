import PackageResolution.Package.Asset
import PackageResolution.Package.Metadata

/-!
# Resolution manifests

A manifest records what the dependencies of a project have been settled to: for
each place that packages compete for, the version and checksum of the package
that won it, or the directory of a local project.  An asset of a dependency is
looked up here and becomes an asset of exactly that package or a file below that
directory.
-/

namespace PackageResolution

/-- What a place has been settled to. -/
inductive ResolvedDependency
  /-- The package with the given identifier and checksum. -/
  | remote (uri : String) (checksum : Checksum)
  /-- The project at `path`, taken from the directory of the project that the
  manifest belongs to. -/
  | localProject (uri path : String)
  deriving DecidableEq, Repr

namespace ResolvedDependency

/-- The identifier of the package that a place has been settled to. -/
def uri : ResolvedDependency → String
  | .remote uri _ => uri
  | .localProject uri _ => uri

/-- Whether a place has been settled to a package of a server. -/
def isRemote : ResolvedDependency → Bool
  | .remote _ _ => true
  | .localProject _ _ => false

/-- The checksum of the package of a server. -/
def checksum? : ResolvedDependency → Option Checksum
  | .remote _ checksum => some checksum
  | .localProject _ _ => none

/-- The written form of an entry. -/
def toJson : ResolvedDependency → Json
  | .remote uri checksum =>
      .ofMembers [("type", .ofText "remote"), ("uri", .ofText uri),
        ("checksums", checksum.toJson)]
  | .localProject uri path =>
      .ofMembers [("type", .ofText "local"), ("uri", .ofText uri), ("path", .ofText path)]

/-- The entry of the given kind, from the part of a document without the kind. -/
def ofKind (kind : String) : Json.Decoder ResolvedDependency := fun depth json => do
  if kind = "remote" then
    let fields ← Json.Decoder.fields ["uri", "checksums"] depth json
    return .remote (← fields.required "uri" Json.Decoder.text)
      (← fields.required "checksums" Checksum.decoder)
  else if kind = "local" then
    let fields ← Json.Decoder.fields ["uri", "path"] depth json
    return .localProject (← fields.required "uri" Json.Decoder.text)
      (← fields.required "path" Json.Decoder.text)
  else throw "unknown kind of dependency"

/-- An entry in a document.  Its kind is the member `type`, or the first item of an
array. -/
def decoder : Json.Decoder ResolvedDependency :=
  Json.Decoder.whole fun depth json =>
    match json with
    | .object members => do
        let (kinds, others) := members.partition fun member => member.1 == some "type"
        match kinds with
        | [(_, kind)] => ofKind (← Json.Decoder.text depth kind) depth (.object others)
        | _ => throw "expected one kind of dependency"
    | .array (kind :: others) => do
        ofKind (← Json.Decoder.text depth kind) depth (.array others)
    | _ => throw "expected an object"

end ResolvedDependency

/-- A resolution manifest. -/
structure Manifest where
  /-- The version of the format. -/
  schemaVersion : Nat
  /-- What each place has been settled to, in the order in which the places were
  met.  The names are the written forms of their keys. -/
  dependencies : List (String × ResolvedDependency)
  deriving DecidableEq, Repr

/-- Where an asset of a dependency is to be found. -/
inductive ResolvedAsset
  /-- In a package of a server, pinned to the recorded checksum. -/
  | remote (asset : PackageAsset)
  /-- In a file. -/
  | localFile (path : Path)
  deriving DecidableEq, Repr

namespace Manifest

/-- The version of the format that is read and written. -/
def currentSchema : Nat := 1

/-- The name of a manifest in the directory of its project. -/
def fileName : String := "PklProject.deps.json"

/-- The manifest with the given entries. -/
def ofEntries (entries : List (String × ResolvedDependency)) : Manifest :=
  { schemaVersion := currentSchema, dependencies := entries }

/-- The written form of a manifest. -/
def toJson (manifest : Manifest) : Json :=
  .ofMembers [("schemaVersion", .ofNat manifest.schemaVersion),
    ("resolvedDependencies",
      .ofMembers (manifest.dependencies.map fun entry => (entry.1, entry.2.toJson)))]

/-- The text of a manifest. -/
def text (manifest : Manifest) : String :=
  manifest.toJson.text

/-- A manifest in a document. -/
def decoder : Json.Decoder Manifest := fun depth json => do
  let fields ← Json.Decoder.fields ["schemaVersion", "resolvedDependencies"] depth json
  return {
    schemaVersion := ← fields.required "schemaVersion" (Json.Decoder.natBelow (Nat.pow 2 32))
    dependencies :=
      ← fields.required "resolvedDependencies" (Json.Decoder.map ResolvedDependency.decoder) }

/-- The manifest that a text holds. -/
def parse (text : String) : Result Manifest :=
  match Json.Decoder.run decoder (Json.Input.ofText text) with
  | .error detail => .error (.invalidProject (.badManifest detail))
  | .ok manifest =>
      if manifest.schemaVersion = currentSchema then .ok manifest
      else
        .error (.invalidProject (.unsupportedSchema manifest.schemaVersion currentSchema))

/-- What the place with the given written key has been settled to. -/
def find? (manifest : Manifest) (key : String) : Option ResolvedDependency :=
  manifest.dependencies.lookup key

/-- Where an asset of a dependency of the project in `directory` is to be found. -/
def resolveAsset (manifest : Manifest) (asset : PackageAsset) (directory : Path) :
    Result ResolvedAsset :=
  let key := asset.package.key.text
  match manifest.find? key with
  | none => .error (.resolution (.unresolvedAsset asset.text key))
  | some (.remote uri checksum) =>
      match PackageUri.parse uri with
      | .error cause => .error (.malformedUri cause)
      | .ok package =>
          let pinned := { package.toPackage with pin := some checksum }
          match PackageAsset.ofPath pinned asset.path with
          | .error cause => .error (.malformedUri cause)
          | .ok asset => .ok (.remote asset)
  | some (.localProject _ path) =>
      let file := directory.join ⟨path⟩
      if asset.relativePath = "" then .ok (.localFile file)
      else .ok (.localFile (file.join ⟨asset.relativePath⟩))

end Manifest

end PackageResolution

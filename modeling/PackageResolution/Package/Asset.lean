import PackageResolution.Package.Uri
import PackageResolution.Text.Percent

/-!
# Assets of packages

An asset is a file or a directory inside a package.  Its path is kept without dot
segments.  The escapes in it are decoded only when the file is looked for.
-/

namespace PackageResolution

/-- The name of an asset of a package. -/
structure PackageAsset where
  /-- The package. -/
  package : PackageUri
  /-- The path of the asset from the root of the package, with its escapes. -/
  path : String
  deriving DecidableEq, Repr

namespace PackageAsset

/-- The written form of an asset identifier. -/
def text (asset : PackageAsset) : String :=
  asset.package.text ++ "#" ++ asset.path

instance : ToString PackageAsset := ⟨text⟩

/-- The asset of `package` at `path`. -/
def ofPath (package : PackageUri) (path : String) : Except MalformedUri PackageAsset :=
  if Text.beginsWith '/' path then
    match UriPath.normalize? path with
    | some path => .ok { package, path }
    | none => .error (.escapingAssetPath path)
  else .error (.relativeAssetPath path)

/-- The asset of the same package at `path`. -/
def withPath (asset : PackageAsset) (path : String) : Except MalformedUri PackageAsset :=
  ofPath asset.package path

/-- The asset that a text names. -/
def parse (text : String) : Except MalformedUri PackageAsset :=
  match Text.cut? '#' text with
  | none => .error (.missingFragment text)
  | some (package, path) =>
      match PackageUri.parse package with
      | .error cause => .error cause
      | .ok package =>
          match ofPath package path with
          | .error cause => .error (.within cause text)
          | .ok asset => .ok asset

/-- The names that lead from the root of the package to the asset, joined by
slashes; the root itself has the empty text. -/
def relativePath (asset : PackageAsset) : String :=
  Percent.decodeLossy (Text.trim '/' asset.path)

/-- The asset as a resource identifier, without the pin of its package. -/
def toUri (asset : PackageAsset) : Uri :=
  { asset.package.toUri with fragment := some asset.path }

/-- Whether a text has the form of an asset identifier at first sight. -/
def isAssetText (text : String) : Bool :=
  (PackageUri.splitScheme? text).isSome && Text.has '#' text

end PackageAsset

end PackageResolution

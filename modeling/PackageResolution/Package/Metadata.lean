import PackageResolution.Checksum
import PackageResolution.Json.Decode
import PackageResolution.Json.Print

/-!
# Metadata of packages

The server describes a package in a metadata document: where its archive is, which
checksum the archive has, and which packages it depends on.  The checksum of this
document is what pins and manifests record.
-/

namespace PackageResolution

/-- The names of the JSON members that write a checksum. -/
def Checksum.toJson (checksum : Checksum) : Json :=
  .ofMembers [("sha256", .ofText checksum.sha256)]

/-- A checksum in a document. -/
def Checksum.decoder : Json.Decoder Checksum := fun depth json => do
  let fields ← Json.Decoder.fields ["sha256"] depth json
  return ⟨← fields.required "sha256" Json.Decoder.text⟩

/-- A package that another one depends on. -/
structure PackageDependency where
  /-- The identifier of the package, as it is written. -/
  uri : String
  /-- The checksum of its metadata document. -/
  checksum : Option Checksum
  deriving DecidableEq, Repr

namespace PackageDependency

/-- The written form of a dependency. -/
def toJson (dependency : PackageDependency) : Json :=
  .ofMembers <| ("uri", .ofText dependency.uri) ::
    match dependency.checksum with
    | some checksum => [("checksums", checksum.toJson)]
    | none => []

/-- A dependency in a document. -/
def decoder : Json.Decoder PackageDependency := fun depth json => do
  let fields ← Json.Decoder.fields ["uri", "checksums"] depth json
  return {
    uri := ← fields.required "uri" Json.Decoder.text
    checksum := ← fields.optional "checksums" (Json.Decoder.nullable Checksum.decoder) none }

end PackageDependency

/-- What a server says about a package. -/
structure PackageMetadata where
  /-- The name of the package. -/
  name : String
  /-- The identifier of the package, as it is written. -/
  packageUri : String
  /-- The version of the package, as it is written. -/
  version : String
  /-- The address of the archive. -/
  archiveUrl : String
  /-- The checksum of the archive. -/
  archiveChecksum : Checksum
  /-- The dependencies by name, in the order of their declaration. -/
  dependencies : List (String × PackageDependency)
  /-- The form of the addresses of source files. -/
  sourceCodeUrlScheme : Option String
  /-- The address of the source code. -/
  sourceCode : Option String
  /-- The address of the documentation. -/
  documentation : Option String
  /-- The name of the licence. -/
  license : Option String
  /-- The authors. -/
  authors : List String
  /-- The address of the issue tracker. -/
  issueTracker : Option String
  /-- A description of the package. -/
  description : Option String
  deriving DecidableEq, Repr

namespace PackageMetadata

/-- The names of the fields in their written order. -/
def fieldNames : List String :=
  ["name", "packageUri", "version", "packageZipUrl", "packageZipChecksums", "dependencies",
    "sourceCodeUrlScheme", "sourceCode", "documentation", "license", "authors",
    "issueTracker", "description"]

/-- A member with a text, unless the text is absent. -/
def textMember (name : String) : Option String → List (String × Json)
  | some text => [(name, .ofText text)]
  | none => []

/-- A member with the authors, unless there are none. -/
def authorsMember (authors : List String) : List (String × Json) :=
  if authors = [] then [] else [("authors", .array (authors.map Json.ofText))]

/-- The members that write metadata.  Absent fields are left out. -/
def members (metadata : PackageMetadata) : List (String × Json) :=
  [("name", .ofText metadata.name), ("packageUri", .ofText metadata.packageUri),
    ("version", .ofText metadata.version), ("packageZipUrl", .ofText metadata.archiveUrl),
    ("packageZipChecksums", metadata.archiveChecksum.toJson),
    ("dependencies",
      .ofMembers (metadata.dependencies.map fun entry => (entry.1, entry.2.toJson)))] ++
  textMember "sourceCodeUrlScheme" metadata.sourceCodeUrlScheme ++
  textMember "sourceCode" metadata.sourceCode ++
  textMember "documentation" metadata.documentation ++
  textMember "license" metadata.license ++
  authorsMember metadata.authors ++
  textMember "issueTracker" metadata.issueTracker ++
  textMember "description" metadata.description

/-- The written form of metadata. -/
def toJson (metadata : PackageMetadata) : Json :=
  .ofMembers metadata.members

/-- The text of a metadata document. -/
def text (metadata : PackageMetadata) : String :=
  metadata.toJson.text

/-- Metadata in a document. -/
def decoder : Json.Decoder PackageMetadata := fun depth json => do
  let fields ← Json.Decoder.fields fieldNames depth json
  let required (name : String) := fields.required name Json.Decoder.text
  let optional (name : String) :=
    fields.optional name (Json.Decoder.nullable Json.Decoder.text) none
  return {
    name := ← required "name"
    packageUri := ← required "packageUri"
    version := ← required "version"
    archiveUrl := ← required "packageZipUrl"
    archiveChecksum := ← fields.required "packageZipChecksums" Checksum.decoder
    dependencies :=
      ← fields.optional "dependencies" (Json.Decoder.map PackageDependency.decoder) []
    sourceCodeUrlScheme := ← optional "sourceCodeUrlScheme"
    sourceCode := ← optional "sourceCode"
    documentation := ← optional "documentation"
    license := ← optional "license"
    authors := ← fields.optional "authors" (Json.Decoder.list Json.Decoder.text) []
    issueTracker := ← optional "issueTracker"
    description := ← optional "description" }

/-- The metadata that a document in bytes holds. -/
def parse (document : ByteArray) : Except String PackageMetadata :=
  Json.Decoder.run decoder (Json.Input.ofBytes document)

end PackageMetadata

end PackageResolution

import PackageResolution.Package.Asset
import PackageResolution.Package.Metadata
import PackageResolution.Security
import PackageResolution.Storage.Basic

/-!
# Loading packages

A resolver finds packages at their servers.  The metadata document of a package comes
first: it must have the checksum that the package is pinned to, and it says where the
archive is and which checksum that must have.  Only an archive with this checksum is
kept.

Documents and packages are remembered by their unpinned identifiers, and only when
everything went well; the pin is checked in every call, since each call can bring its
own.
-/

namespace PackageResolution

/-- The metadata of a package with the checksum of the document. -/
structure DescribedPackage where
  /-- What the document says. -/
  metadata : PackageMetadata
  /-- The checksum of the document. -/
  checksum : Checksum
  deriving DecidableEq, Repr

/-- What a resolver remembers, by unpinned identifiers. -/
structure Memo where
  /-- The packages whose documents are known. -/
  described : List (PackageUri × DescribedPackage)
  /-- The packages that are kept. -/
  stored : List (PackageUri × StoredPackage)

/-- The memory of a new resolver. -/
def Memo.empty : Memo :=
  { described := [], stored := [] }

/-- An attempt that can use and extend what a resolver remembers. -/
abbrev Resolving := ExceptT Error (StateT Memo Action)

namespace Resolving

/-- An attempt that remembers nothing. -/
def ofAttempt {α : Type} (attempt : Attempt α) : Resolving α :=
  ExceptT.mk (StateT.lift attempt.run)

/-- A result that is known. -/
def ofResult {α : Type} (result : Result α) : Resolving α :=
  ExceptT.mk (pure result)

/-- What is remembered, or else what an attempt gives, which is remembered from then
on.  A failure is not. -/
def remembering {α : Type} (known? : Memo → Option α) (record : α → Memo → Memo)
    (attempt : Attempt α) : Resolving α := do
  match known? (← get) with
  | some value => return value
  | none =>
      let value ← ofAttempt attempt
      modify (record value)
      return value

end Resolving

/-- Whether somebody watches. -/
inductive Progress
  | watched
  | unwatched
  deriving DecidableEq, Repr

/-- Shows a line to whoever watches. -/
def Progress.report (progress : Progress) (line : String) : Attempt Unit :=
  match progress with
  | .watched => ExceptT.lift (Action.request (.report line))
  | .unwatched => pure ()

/-- What finds packages. -/
structure Resolver where
  /-- Where packages are kept. -/
  storage : Storage
  /-- What decides what is allowed. -/
  security : Security

namespace Resolver

variable [ArchiveReader]

/-- Checks that the package may be loaded for `uri`. -/
def checkPackage (resolver : Resolver) (package : PackageUri) (uri : Uri) : Result Unit :=
  if package.scheme = .projectPackage then
    .error (.invalidArgument (.projectPackage uri.text))
  else resolver.security.checkModule uri

/-- The document at an address, for a package. -/
def download (package : PackageUri) (url : String) : Attempt ByteArray := do
  match ← (Action.request (.fetch url) : Action _) with
  | .ok document => return document
  | .error cause => throw (.packageLoad (.download package.text cause))

/-! ## Metadata -/

/-- What a metadata document says about a package. -/
def describe (package : PackageUri) (document : ByteArray) : Result DescribedPackage :=
  match PackageMetadata.parse document with
  | .ok metadata => .ok { metadata, checksum := .ofDocument document }
  | .error detail =>
      .error (.packageLoad (.badMetadata package.text package.metadataUrl detail))

/-- The metadata of an unpinned package, from the storage or from its server.  A
document that cannot be read is not stored. -/
def loadMetadata (resolver : Resolver) (progress : Progress) (package : PackageUri) :
    Attempt DescribedPackage := do
  match ← resolver.storage.metadata? package with
  | some document => Attempt.ofResult (describe package document)
  | none =>
      progress.report s!"Downloading metadata for package `{package.text}`"
      let document ← download package package.metadataUrl
      let described ← Attempt.ofResult (describe package document)
      resolver.storage.keepMetadata package document
      return described

/-- Checks that the document of a package has the checksum that the package is pinned
to. -/
def checkPin (package : PackageUri) (described : DescribedPackage) : Result Unit :=
  match package.pin with
  | none => .ok ()
  | some expected =>
      if expected.agrees described.checksum then .ok ()
      else
        .error (.packageLoad (.wrongChecksum .metadata package.unpinned.text
          described.checksum.sha256 expected.sha256 package.metadataUrl))

/-- The metadata of a package. -/
def metadata (resolver : Resolver) (progress : Progress) (package : PackageUri) :
    Resolving DescribedPackage := do
  let described ← Resolving.remembering
    (fun memo => memo.described.lookup package.unpinned)
    (fun described memo =>
      { memo with described := (package.unpinned, described) :: memo.described })
    (resolver.loadMetadata progress package.unpinned)
  Resolving.ofResult (checkPin package described)
  return described

/-! ## Archives -/

/-- Whether an address is asked for over an encrypted connection. -/
def isSecure (url : String) : Bool :=
  match Uri.parse url with
  | .ok uri => uri.hasScheme "https"
  | .error _ => false

/-- Checks that an archive has the checksum that the metadata names. -/
def checkArchive (package : PackageUri) (metadata : PackageMetadata) (archive : ByteArray) :
    Result Unit :=
  let computed := Checksum.ofDocument archive
  if computed.agrees metadata.archiveChecksum then .ok ()
  else
    .error (.packageLoad (.wrongChecksum .archive package.text computed.sha256
      metadata.archiveChecksum.sha256 metadata.archiveUrl))

/-- The unpinned package from the archive that its metadata names. -/
def loadArchive (resolver : Resolver) (progress : Progress) (package : PackageUri)
    (metadata : PackageMetadata) : Attempt StoredPackage := do
  if !isSecure metadata.archiveUrl then
    throw (.packageLoad (.insecureArchive package.text metadata.archiveUrl))
  progress.report s!"Downloading package `{package.text}`"
  let archive ← download package metadata.archiveUrl
  Attempt.ofResult (checkArchive package metadata archive)
  resolver.storage.keep package archive

/-- The unpinned package, from the storage or from its archive. -/
def loadPackage (resolver : Resolver) (progress : Progress) (package : PackageUri)
    (metadata : PackageMetadata) : Attempt StoredPackage := do
  match ← resolver.storage.package? package with
  | some stored => return stored
  | none => resolver.loadArchive progress package metadata

/-- A package, ready to be read. -/
def package (resolver : Resolver) (progress : Progress) (package : PackageUri) :
    Resolving StoredPackage := do
  let described ← resolver.metadata progress package
  Resolving.remembering
    (fun memo => memo.stored.lookup package.unpinned)
    (fun stored memo => { memo with stored := (package.unpinned, stored) :: memo.stored })
    (resolver.loadPackage progress package.unpinned described.metadata)

/-! ## What callers ask for -/

/-- The package of an asset, and what is at the asset's path in it. -/
def locate (resolver : Resolver) (progress : Progress) (asset : PackageAsset) :
    Resolving (StoredPackage × Option ElementKind) := do
  Resolving.ofResult (resolver.checkPackage asset.package asset.toUri)
  let stored ← resolver.package progress asset.package
  let kind ← Resolving.ofAttempt (stored.kind? asset.relativePath)
  return (stored, kind)

/-- The names of a directory in order, one to a line. -/
def listing (elements : List PathElement) : ByteArray :=
  let names := (elements.map PathElement.name).mergeSort fun a b => a ≤ b
  (String.join (names.map (· ++ "\n"))).toUTF8

/-- The contents of an asset.  A directory has its listing, if `allowsDirectory`. -/
def getBytes (resolver : Resolver) (progress : Progress) (asset : PackageAsset)
    (allowsDirectory : Bool) : Resolving ByteArray := do
  let (stored, kind) ← resolver.locate progress asset
  match kind with
  | none => throw (.assetNotFound asset.text)
  | some .file => Resolving.ofAttempt (stored.read asset.relativePath)
  | some .directory =>
      if allowsDirectory then
        return listing (← Resolving.ofAttempt (stored.children asset.relativePath))
      else throw (.isADirectory asset.text)

/-- The text of a file in a package. -/
def getText (resolver : Resolver) (progress : Progress) (asset : PackageAsset) :
    Resolving String := do
  let bytes ← resolver.getBytes progress asset false
  match Utf8.decode bytes.data.toList with
  | .ok text => return text
  | .error cause => throw (.io (.decodeAsset asset.text) (.notText cause))

/-- The names in a directory of a package. -/
def listElements (resolver : Resolver) (progress : Progress) (asset : PackageAsset) :
    Resolving (List PathElement) := do
  let (stored, kind) ← resolver.locate progress asset
  match kind with
  | none => throw (.assetNotFound asset.text)
  | some .file => throw (.notADirectory asset.text)
  | some .directory => Resolving.ofAttempt (stored.children asset.relativePath)

/-- Whether a package has an asset. -/
def hasElement (resolver : Resolver) (progress : Progress) (asset : PackageAsset) :
    Resolving Bool := do
  let (_, kind) ← resolver.locate progress asset
  return kind.isSome

/-- The metadata of a package with the checksum of its document. -/
def dependencyMetadata (resolver : Resolver) (progress : Progress) (package : PackageUri) :
    Resolving DescribedPackage := do
  Resolving.ofResult (resolver.checkPackage package package.toUri)
  resolver.metadata progress package

/-- Loads a package, so that later calls find it. -/
def downloadPackage (resolver : Resolver) (progress : Progress) (package : PackageUri) :
    Resolving Unit := do
  Resolving.ofResult (resolver.checkPackage package package.toUri)
  let _ ← resolver.package progress package

end Resolver

end PackageResolution

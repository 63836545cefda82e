import PackageResolution.OsError
import PackageResolution.Text.Utf8
import PackageResolution.Version.Basic

/-!
# Failures

A failure is kept as its cause, with the texts that the cause is about; the words
for it are in one function per kind of cause.  `Error` sorts the causes by what a
caller can do about them: mend an identifier, try again, or conclude that a thing
does not exist.
-/

namespace PackageResolution

/-- Why a text is no identifier of a resource, a package or an asset. -/
inductive MalformedUri
  | illegalCharacter (c : Char) (text : String)
  | nothingAfterScheme (text : String)
  | illegalScheme (text : String)
  | undecodablePath (text : String) (cause : Utf8.DecodeError)
  | notAPackageScheme (text : String)
  | unexpectedFragment (text : String)
  | badChecksum (text : String)
  | missingPath (text : String)
  | missingVersion (text : String)
  | emptyAuthority (text : String)
  | emptyPath (text : String)
  | badPath (path text : String)
  | badVersion (version text : String) (cause : Version.SyntaxError)
  | missingFragment (text : String)
  | relativeAssetPath (path : String)
  | escapingAssetPath (path : String)
  | undecodableReference (text : String) (cause : Utf8.DecodeError)
  /-- A fault of a part, reported with the whole text. -/
  | within (cause : MalformedUri) (text : String)
  deriving DecidableEq, Repr

/-- The wording of a fault in an identifier. -/
def MalformedUri.message : MalformedUri → String
  | .illegalCharacter c text =>
      s!"Illegal character {Text.quotedChar c} in URI `{text}`"
  | .nothingAfterScheme text => s!"Expected scheme-specific part in URI `{text}`"
  | .illegalScheme text => s!"Illegal character in scheme name of URI `{text}`"
  | .undecodablePath text cause => s!"Invalid path in URI `{text}`: {cause.message}"
  | .notAPackageScheme text => s!"Invalid package URI scheme: `{text}`"
  | .unexpectedFragment text =>
      s!"Package URI `{text}` must not have a fragment. " ++
        "Use a package asset URI to address a file inside the package."
  | .badChecksum text => s!"Invalid checksum format: `{text}`. Expected 'sha256:...'"
  | .missingPath text => s!"Missing path in package URI `{text}`"
  | .missingVersion text => s!"Missing version in package URI `{text}`"
  | .emptyAuthority text => s!"Empty authority in package URI `{text}`"
  | .emptyPath text => s!"Empty path in package URI `{text}`"
  | .badPath path text => s!"Invalid path `{path}` in package URI `{text}`"
  | .badVersion version text cause =>
      s!"Invalid semantic version `{version}` in package URI `{text}`: {cause.message}"
  | .missingFragment text => s!"Package asset URI `{text}` is missing a fragment"
  | .relativeAssetPath path => s!"Asset path `{path}` must be absolute (start with `/`)"
  | .escapingAssetPath path => s!"Asset path `{path}` navigates above the package root"
  | .undecodableReference text cause => s!"Invalid path `{text}`: {cause.message}"
  | .within cause text => s!"{cause.message} (in `{text}`)"

/-- Why a reference in a module cannot be followed. -/
inductive MalformedReference
  | leavesPackage (reference package : String)
  | noBase (reference module : String)
  | noFileName (reference module : String)
  | badAscension (reference : String)
  deriving DecidableEq, Repr

/-- The wording of a fault in a reference. -/
def MalformedReference.message : MalformedReference → String
  | .leavesPackage reference package =>
      s!"Cannot resolve `{reference}` inside package `{package}`"
  | .noBase reference module =>
      s!"Cannot resolve relative reference `{reference}` from module `{module}`"
  | .noFileName reference module =>
      s!"Cannot resolve `{reference}` from module `{module}`, which has no file name"
  | .badAscension reference =>
      s!"`{reference}` is not a valid triple-dot import. Expected `...` or `.../<path>`."

/-- Which of a package's two documents a checksum is about. -/
inductive Document
  | metadata
  | archive
  deriving DecidableEq, Repr

/-- The name of a document in messages. -/
def Document.name : Document → String
  | .metadata => "package metadata"
  | .archive => "package zip"

/-- Why a package cannot be loaded. -/
inductive PackageLoadError
  | cannotOpenArchive (package detail : String)
  | cannotReadArchive (package detail : String)
  | entryOutsideRoot (package entry : String)
  | badMetadata (package url detail : String)
  | insecureArchive (package url : String)
  | wrongChecksum (document : Document) (package computed expected url : String)
  | download (package : String) (cause : FetchError)
  | endless
  deriving DecidableEq, Repr

/-- The wording of a failure to load a package. -/
def PackageLoadError.message : PackageLoadError → String
  | .cannotOpenArchive package detail =>
      s!"Failed to open the zip archive of package `{package}`: {detail}"
  | .cannotReadArchive package detail =>
      s!"Failed to read the zip archive of package `{package}`: {detail}"
  | .entryOutsideRoot package entry =>
      s!"Zip archive of package `{package}` contains entry `{entry}` outside of the package root"
  | .badMetadata package url detail =>
      s!"Failed to parse metadata of package `{package}` from `{url}`: {detail}"
  | .insecureArchive package url =>
      s!"Expected the zip asset for package `{package}` to be an HTTPS URI, but got `{url}`."
  | .wrongChecksum document package computed expected url =>
      s!"Cannot download package `{package}` because the computed checksum for " ++
        s!"{document.name} does not match the expected checksum.\n\n" ++
        s!"Computed checksum: \"{computed}\"\nExpected checksum: \"{expected}\"\n" ++
        s!"Asset URL: \"{url}\""
  | .download package cause => s!"Cannot download package `{package}`. {cause.message}"
  | .endless => "The dependencies of the packages have no end"

/-- Why the dependencies of a project cannot be settled. -/
inductive ResolutionError
  | unresolvedAsset (asset key : String)
  | conflictingProjects (key first second : String)
  | wrongPin (package computed declared : String)
  | endless (directory : String)
  deriving DecidableEq, Repr

/-- The wording of a failure to settle dependencies. -/
def ResolutionError.message : ResolutionError → String
  | .unresolvedAsset asset key =>
      s!"Cannot resolve `{asset}` because the project has no resolved dependency `{key}`. " ++
        "Try resolving the project's dependencies again."
  | .conflictingProjects key first second =>
      s!"Conflicting local dependencies for `{key}`: {first} and {second}"
  | .wrongPin package computed declared =>
      s!"Computed checksum did not match declared checksum for dependency `{package}`.\n\n" ++
        s!"Computed: \"{computed}\"\nDeclared: \"{declared}\""
  | .endless directory => s!"The dependencies of the project at {directory} have no end"

/-- What an access is asked for. -/
inductive Access
  | module
  | resource
  deriving DecidableEq, Repr

/-- The name of an access in messages. -/
def Access.name : Access → String
  | .module => "module"
  | .resource => "resource"

/-- Why an access is refused. -/
inductive SecurityError
  | notAllowed (access : Access) (uri : String)
  | outsideRootDirectory (access : Access) (uri : String)
  | importOfHigherTrust (imported importing : String)
  deriving DecidableEq, Repr

/-- The wording of a refusal. -/
def SecurityError.message : SecurityError → String
  | .notAllowed .module uri =>
      s!"Refusing to load module `{uri}` because it does not match any entry in the module " ++
        "allowlist (`--allowed-modules`)."
  | .notAllowed .resource uri =>
      s!"Refusing to read resource `{uri}` because it does not match any entry in the " ++
        "resource allowlist (`--allowed-resources`)."
  | .outsideRootDirectory access uri =>
      s!"Refusing to load {access.name} `{uri}` because it is not within the root directory " ++
        "(`--root-dir`)."
  | .importOfHigherTrust imported importing =>
      s!"Refusing to import module `{imported}` from module `{importing}` because the imported " ++
        "module has a higher trust level than the importing module."

/-- Why a request makes no sense. -/
inductive InvalidArgument
  | relativePath (path : String)
  | relativeUri (uri : String)
  | projectPackage (uri : String)
  | noModulePath (uri : String)
  | noProject (uri : String)
  | noPackageLoading (uri : String)
  | unsupportedModule (uri : String)
  | unreadableResource (uri : String)
  | badPattern (pattern detail : String)
  | badSettings (file detail : String)
  | badCertificate (file detail : String)
  deriving DecidableEq, Repr

/-- The wording of a senseless request. -/
def InvalidArgument.message : InvalidArgument → String
  | .relativePath path => s!"Path `{path}` is not absolute"
  | .relativeUri uri => s!"URI `{uri}` is not absolute"
  | .projectPackage uri =>
      s!"Cannot load `{uri}` directly. Project packages must be resolved through the " ++
        "project's dependencies."
  | .noModulePath uri => s!"Cannot load `{uri}` because no module path is configured"
  | .noProject uri => s!"Cannot load `{uri}` outside of a project"
  | .noPackageLoading uri => s!"Cannot load `{uri}` because package loading is disabled"
  | .unsupportedModule uri => s!"Unsupported module URI `{uri}`"
  | .unreadableResource uri => s!"Cannot read resource `{uri}`"
  | .badPattern pattern detail => s!"Invalid allow-list pattern `{pattern}`: {detail}"
  | .badSettings file detail => s!"Invalid settings file {file}: {detail}"
  | .badCertificate file detail => s!"Invalid PEM certificate in {file}: {detail}"

/-- Why a project or its manifest cannot be used. -/
inductive InvalidProject
  | badManifest (detail : String)
  | unsupportedSchema (version expected : Nat)
  | badPackageDeclaration (name : String) (cause : MalformedUri)
  | badDescriptor (file detail : String)
  | cannotLoad (directory : String) (cause : OsError)
  | undeclaredPackage (directory : String)
  deriving DecidableEq, Repr

/-- The wording of a fault in a project. -/
def InvalidProject.message : InvalidProject → String
  | .badManifest detail => s!"Failed to parse PklProject.deps.json: {detail}"
  | .unsupportedSchema version expected =>
      s!"Unsupported PklProject.deps.json schema version: {version}. Expected: {expected}"
  | .badPackageDeclaration name cause =>
      s!"Package `{name}` declares an invalid base URI or version: " ++
        s!"Malformed URI: {cause.message}"
  | .badDescriptor file detail => s!"Failed to parse {file}: {detail}"
  | .cannotLoad directory cause => s!"Cannot load project at {directory}: {cause.message}"
  | .undeclaredPackage directory =>
      s!"Local dependency at {directory} does not declare a package"

/-- What was being done when an operation on files or bytes failed. -/
inductive IoTask
  | createCacheDirectory (path : String)
  | createStagingArea (path : String)
  | createStagingDirectory
  | createTemporaryFile
  | create (path : String)
  | read (path : String)
  | stat (path : String)
  | list (path : String)
  | writeMetadata
  | moveMetadata (path : String)
  | movePackage (path : String)
  | decodeAsset (asset : String)
  | createTemporaryFileIn (directory : String)
  | write (path : String)
  | readCertificates (path : String)
  deriving DecidableEq, Repr

/-- The wording of what was being done. -/
def IoTask.message : IoTask → String
  | .createCacheDirectory path => s!"Failed to create cache directory {path}"
  | .createStagingArea path => s!"Failed to create staging directory {path}"
  | .createStagingDirectory => "Failed to create staging directory"
  | .createTemporaryFile => "Failed to create temp file"
  | .create path => s!"Failed to create {path}"
  | .read path => s!"Failed to read {path}"
  | .stat path => s!"Failed to stat {path}"
  | .list path => s!"Failed to list {path}"
  | .writeMetadata => "Failed to write package metadata"
  | .moveMetadata path => s!"Failed to move metadata to {path}"
  | .movePackage path => s!"Failed to move package into {path}"
  | .decodeAsset asset => s!"Failed to decode `{asset}` as UTF-8"
  | .createTemporaryFileIn directory => s!"Failed to create temp file in {directory}"
  | .write path => s!"Failed to write {path}"
  | .readCertificates path => s!"Failed to read certificate file {path}"

/-- Why an operation on files or bytes failed. -/
inductive IoCause
  /-- The system refused. -/
  | refused (cause : OsError)
  /-- The system refused to create the temporary `path`. -/
  | refusedAt (cause : OsError) (path : String)
  /-- The system refused to put a temporary file in its place. -/
  | notPersisted (cause : OsError)
  /-- The bytes are no text. -/
  | notText (cause : Utf8.DecodeError)
  /-- The contents of a file are no text. -/
  | notTextFile
  deriving DecidableEq, Repr

/-- The wording of a failed operation. -/
def IoCause.message : IoCause → String
  | .refused cause => cause.message
  | .refusedAt cause path => s!"{cause.message} at path {Text.quotedText path}"
  | .notPersisted cause => s!"failed to persist temporary file: {cause.message}"
  | .notText cause => cause.message
  | .notTextFile => "stream did not contain valid UTF-8"

/-- A failure of resolution. -/
inductive Error
  /-- An identifier is malformed. -/
  | malformedUri (cause : MalformedUri)
  /-- A reference between modules is malformed. -/
  | malformedReference (cause : MalformedReference)
  /-- A package could not be loaded. -/
  | packageLoad (cause : PackageLoadError)
  /-- The package was loaded and has no such asset. -/
  | assetNotFound (asset : String)
  /-- The asset is a directory where a file is needed. -/
  | isADirectory (asset : String)
  /-- The asset is a file where a directory is needed. -/
  | notADirectory (asset : String)
  /-- No directory above `module` has what `reference` asks for. -/
  | moduleNotFound (reference module : String)
  /-- The module has no directories above it that could be searched. -/
  | ascensionNotSupported (module : String)
  /-- The dependencies of a project contradict each other. -/
  | resolution (cause : ResolutionError)
  /-- The access is not allowed. -/
  | security (cause : SecurityError)
  /-- The request makes no sense. -/
  | invalidArgument (cause : InvalidArgument)
  /-- The project cannot be used. -/
  | invalidProject (cause : InvalidProject)
  /-- An operation on files or bytes failed. -/
  | io (task : IoTask) (cause : IoCause)
  deriving DecidableEq, Repr

namespace Error

/-- The wording of a failure. -/
def message : Error → String
  | .malformedUri cause => s!"Malformed URI: {cause.message}"
  | .malformedReference cause => s!"Malformed module reference: {cause.message}"
  | .packageLoad cause => cause.message
  | .assetNotFound asset => s!"Asset not found: {asset}"
  | .isADirectory asset => s!"Is a directory: {asset}"
  | .notADirectory asset => s!"Not a directory: {asset}"
  | .moduleNotFound reference module =>
      s!"Module not found: Cannot find module `{reference}` in any directory above `{module}`"
  | .ascensionNotSupported module =>
      s!"Cannot resolve triple-dot import from module `{module}`, because it does not have a " ++
        "hierarchical, local origin."
  | .resolution cause => cause.message
  | .security cause => cause.message
  | .invalidArgument cause => s!"Invalid argument: {cause.message}"
  | .invalidProject cause => s!"Invalid project: {cause.message}"
  | .io task cause => s!"IO error: {task.message}: {cause.message}"

/-- Whether a failure says that the thing asked for does not exist, as opposed to
a failure to find out. -/
def isNotFound : Error → Bool
  | .assetNotFound _ => true
  | .moduleNotFound _ _ => true
  | _ => false

end Error

/-- The result of a step that can fail. -/
abbrev Result := Except Error

end PackageResolution

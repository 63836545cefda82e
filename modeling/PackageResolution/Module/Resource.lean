import PackageResolution.Module.Key

/-!
# Reading resources

A resource is read from the same origins as modules.  Two identifiers must be allowed:
the one that was asked for, and the one that is read in the end, which is another when
a project maps a dependency to a file.
-/

namespace PackageResolution.ModuleContext

variable [ArchiveReader]

/-- The contents of the file that the resource `uri` is in. -/
def readFile (path : Path) (uri : Uri) : Attempt ByteArray := do
  match ← (Action.request (.read path) : Action _) with
  | .ok contents => return contents
  | .error .notFound => throw (.assetNotFound uri.text)
  | .error refusal => throw (.io (.read path.text) (.refused refusal))

/-- The contents of a resource at its origin. -/
def readKey : ModuleKey → Resolving ByteArray
  | .package asset resolver => resolver.getBytes .unwatched asset true
  | .file uri => do
      match ← Resolving.ofResult uri.toPath with
      | some path => Resolving.ofAttempt (readFile path uri)
      | none => throw (.invalidArgument (.unreadableResource uri.text))
  | .onPath uri modulePath => do
      match ← Resolving.ofAttempt (ExceptT.lift (modulePath.find? uri.path)) with
      | some path => Resolving.ofAttempt (readFile path uri)
      | none => throw (.assetNotFound uri.text)
  | .web uri => throw (.invalidArgument (.unreadableResource uri.text))
  | .builtIn uri => throw (.invalidArgument (.unreadableResource uri.text))

/-- Whether resources are read from an origin. -/
def isReadable : ModuleKey → Bool
  | .package _ _ => true
  | .file _ => true
  | .onPath _ _ => true
  | .web _ => false
  | .builtIn _ => false

/-- The contents of a resource.  A directory of a package has its listing. -/
def readResource (context : ModuleContext) (security : Security) (uri : Uri) :
    Resolving ByteArray := do
  Resolving.ofResult (security.checkRequest uri)
  let key ← Resolving.ofResult (context.key uri)
  if isReadable key then Resolving.ofResult (security.checkResource key.uri)
  readKey key

end PackageResolution.ModuleContext

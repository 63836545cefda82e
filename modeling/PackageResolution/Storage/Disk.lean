import PackageResolution.Action.Files
import PackageResolution.Storage.Memory

/-!
# Packages on disk

A cache directory holds packages and their metadata documents, to be shared by
everybody who uses the directory.  An archive is extracted in a staging area and
moved to its place when it is complete, so that a directory at the place of a package
is always a whole package.  Where somebody else was faster, the move fails and their
package counts.
-/

namespace PackageResolution.Storage

/-- The directory in which packages and documents are completed. -/
def stagingArea (cache : Path) : Path :=
  cache.join ⟨"tmp"⟩

/-- Creates the staging area. -/
def createStagingArea (cache : Path) : Attempt Unit :=
  Attempt.createDirectories (.createStagingArea (stagingArea cache).text) (stagingArea cache)

/-- Creates the directory above a path. -/
def createParent (path : Path) : Attempt Unit :=
  match path.parent? with
  | some above => Attempt.createDirectories (.create above.text) above
  | none => pure ()

/-- The stored metadata document of a package. -/
def loadMetadata (cache : Path) (package : PackageUri) : Attempt (Option ByteArray) := do
  let path := package.metadataCachePath cache
  match ← (Action.request (.read path) : Action _) with
  | .ok document => return some document
  | .error .notFound => return none
  | .error refusal => throw (.io (.read path.text) (.refused refusal))

/-- Stores the metadata document of a package. -/
def storeMetadata (cache : Path) (package : PackageUri) (document : ByteArray) :
    Attempt Unit := do
  let path := package.metadataCachePath cache
  createParent path
  createStagingArea cache
  Attempt.writeThrough (stagingArea cache) path document .createTemporaryFile .writeMetadata
    (.moveMetadata path.text)

/-- The directory of a package that is stored. -/
def storedRoot? (cache : Path) (package : PackageUri) : Action (Option Path) := do
  let root := package.cachePath cache
  return if ← Action.leadsToDirectory root then some root else none

/-- Writes an entry of an archive below a directory. -/
def extractEntry (package : PackageUri) (directory : Path) (entry : ArchiveEntry) :
    Attempt Unit := do
  let path ← Attempt.ofResult (entryPath package entry)
  if path = "" then return ()
  let target := directory.join ⟨path⟩
  if entry.isDirectory then
    Attempt.createDirectories (.create target.text) target
  else
    createParent target
    let write (contents : ByteArray) : Attempt Unit :=
      Attempt.files (.create target.text) (Action.request (.write target contents))
    match entry.contents with
    | .intact bytes => write bytes
    | .damaged detail =>
        write .empty
        throw (cannotRead package detail)
    | .unreadable detail => throw (cannotRead package detail)

/-- Writes the entries of an archive below a directory. -/
def extract [ArchiveReader] (package : PackageUri) (archive : ByteArray) (directory : Path) :
    Attempt Unit := do
  let entries ← Attempt.ofResult (openArchive package archive)
  entries.forM (extractEntry package directory)

/-- Moves a staged package to its place, unless a package is there. -/
def publish (staging root : Path) : Attempt Unit := do
  createParent root
  match ← (Action.request (.rename staging root) : Action _) with
  | .ok _ => return ()
  | .error refusal =>
      if ← (Action.leadsToDirectory root : Action _) then return ()
      else throw (.io (.movePackage root.text) (.refused refusal))

/-- Does something and then removes what is left of a staging directory, whether it
failed or not. -/
def clearing (staging : Path) (attempt : Attempt Unit) : Attempt Unit :=
  ExceptT.mk do
    let result ← attempt.run
    let _ ← Action.request (.removeTree staging)
    return result

/-- Extracts the archive of a package into the cache and gives its directory. -/
def materialize [ArchiveReader] (cache : Path) (package : PackageUri) (archive : ByteArray) :
    Attempt Path := do
  let root := package.cachePath cache
  createStagingArea cache
  match ← (Action.createTemporaryDirectory (stagingArea cache) "package-" : Action _) with
  | .error cause => throw (.io .createStagingDirectory cause)
  | .ok staging =>
      clearing staging do
        extract package archive staging
        publish staging root
      return root

end PackageResolution.Storage

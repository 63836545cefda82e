import PackageResolution.Resolver

/-!
# Downloading packages with their dependencies

Some packages are downloaded, and then the packages that they depend on, each version
once.  The packages still to be downloaded are a stack: the one named last comes first,
and the dependencies of a package come before what was named earlier.  What downloads a
package is a `Downloader`, so the loop can be followed with any of them.
-/

namespace PackageResolution

/-- What downloads packages. -/
structure Downloader (m : Type → Type) where
  /-- Downloads a package. -/
  download : PackageUri → m Unit
  /-- The metadata of a package. -/
  describe : PackageUri → m PackageMetadata

/-- The package that a metadata document lists, with the checksum beside it and no
other pin. -/
def PackageDependency.listedPackage (dependency : PackageDependency) : Result PackageUri :=
  match PackageUri.parse dependency.uri with
  | .ok package => .ok { package with pin := dependency.checksum }
  | .error cause => .error (.malformedUri cause)

/-- The packages that a metadata document lists, in its order. -/
def PackageMetadata.listedPackages (metadata : PackageMetadata) : Result (List PackageUri) :=
  metadata.dependencies.mapM fun entry => entry.2.listedPackage

/-- The state of downloading. -/
structure Downloads where
  /-- The packages still to be downloaded, next one first. -/
  pending : List PackageUri
  /-- The unpinned packages that were downloaded. -/
  seen : List PackageUri
  deriving DecidableEq, Repr

namespace Downloads

/-- The start of downloading some packages. -/
def start (packages : List PackageUri) : Downloads :=
  { pending := packages.reverse, seen := [] }

variable {m : Type → Type} [Monad m] [MonadExceptOf Error m]

/-- The packages that a package brings along. -/
def broughtAlong (downloader : Downloader m) (transitive : Bool) (package : PackageUri) :
    m (List PackageUri) := do
  if transitive then
    let metadata ← downloader.describe package
    MonadExcept.ofExcept metadata.listedPackages
  else return []

/-- Downloads a package, unless it was downloaded before. -/
def meet (downloader : Downloader m) (transitive : Bool) (downloads : Downloads)
    (package : PackageUri) : m Downloads := do
  if downloads.seen.contains package.unpinned then return downloads
  else
    downloader.download package
    let dependencies ← broughtAlong downloader transitive package
    return {
      pending := dependencies.reverse ++ downloads.pending
      seen := package.unpinned :: downloads.seen }

/-- Downloads what is pending, and tells whether that ended before that many packages
were met. -/
def run (downloader : Downloader m) (transitive : Bool) : Nat → Downloads → m Bool
  | 0, _ => return false
  | steps + 1, downloads =>
      match downloads.pending with
      | [] => return true
      | package :: rest => do
          let downloads := { downloads with pending := rest }
          run downloader transitive steps (← downloads.meet downloader transitive package)

/-- More packages than can be met in practice: only packages without end could bring up
as many. -/
def stepLimit : Nat := Nat.pow 2 62

end Downloads

/-- Downloads some packages and, if `transitive`, all that they depend on. -/
def Downloader.downloadAll {m : Type → Type} [Monad m] [MonadExceptOf Error m]
    (downloader : Downloader m) (transitive : Bool) (packages : List PackageUri) :
    m Unit := do
  unless ← Downloads.run downloader transitive Downloads.stepLimit (.start packages) do
    throw (.packageLoad .endless)

/-- The downloader that loads packages with a resolver. -/
def Resolver.downloader [ArchiveReader] (resolver : Resolver) (progress : Progress) :
    Downloader Resolving where
  download package := resolver.downloadPackage progress package
  describe package := do
    return (← resolver.dependencyMetadata .unwatched package).metadata

end PackageResolution

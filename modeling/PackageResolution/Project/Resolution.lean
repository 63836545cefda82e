import PackageResolution.Association
import PackageResolution.Project.Loader
import PackageResolution.Project.Manifest
import PackageResolution.Resolver
import PackageResolution.Text.Percent
import PackageResolution.Uri.File
import PackageResolution.Uri.Relativize
import PackageResolution.Version.Order

/-!
# Settling the dependencies of a project

Resolution walks through the dependencies of a project, depth first and in the order
of their declaration.  For each place it keeps the greatest version that is asked for,
whose own dependencies are walked through as soon as it is chosen; a local project
takes its place from every version.  Every pin of the chosen version is checked.

The walk is a loop over the requirements that are still to be met.  What it asks for,
the metadata of packages and the projects in directories, comes from a `Source`, so the
walk can be followed with any of them.
-/

namespace PackageResolution

/-- A step of the walk that is taken note of. -/
inductive LogEntry
  /-- The metadata of a package is asked for next. -/
  | resolving (package : PackageUri)
  /-- The project in a directory is visited next. -/
  | visiting (directory : Path)
  deriving DecidableEq, Repr

/-- The line that is shown for a step. -/
def LogEntry.text : LogEntry → String
  | .resolving package => s!"Resolving {package.text}"
  | .visiting directory => s!"Resolving local project {directory.text}"

/-- What the walk asks for. -/
structure Source (m : Type → Type) where
  /-- The metadata of an unpinned package. -/
  describe : PackageUri → m DescribedPackage
  /-- The project at a path. -/
  load : Path → m Project
  /-- Takes note of a step. -/
  log : LogEntry → m Unit

/-- Something that a dependency requires. -/
inductive Requirement
  /-- A version of a package, or a later one. -/
  | remote (package : PackageUri)
  /-- The package that a metadata document lists. -/
  | listed (dependency : PackageDependency)
  /-- The project at a path. -/
  | localProject (path : Path)
  deriving DecidableEq, Repr

namespace Requirement

/-- What a dependency of a project requires. -/
def ofDependency : Dependency → Requirement
  | .remote package => .remote package
  | .localProject path => .localProject path

/-- What a project requires, in the order of declaration. -/
def ofProject (project : Project) : List Requirement :=
  project.dependencies.map fun entry => ofDependency entry.2

/-- What a package requires, in the order of its metadata. -/
def ofMetadata (metadata : PackageMetadata) : List Requirement :=
  metadata.dependencies.map fun entry => .listed entry.2

end Requirement

/-- The package that a metadata document lists, with the pin in its identifier or else
the checksum beside it. -/
def PackageDependency.package (dependency : PackageDependency) : Result PackageUri :=
  match PackageUri.parse dependency.uri with
  | .ok package => .ok { package with pin := package.pin.or dependency.checksum }
  | .error cause => .error (.malformedUri cause)

/-- What a place is settled to during the walk. -/
inductive Choice
  /-- A version of a package and the checksum of its metadata. -/
  | remote (package : PackageUri) (checksum : Checksum)
  /-- The project in a directory, which publishes `package`. -/
  | localProject (package : PackageUri) (directory : Path)
  deriving DecidableEq, Repr

/-- The walk through the dependencies of a project. -/
structure Walk where
  /-- What is still to be met, next one first. -/
  pending : List Requirement
  /-- What the places are settled to, in the order in which they were met. -/
  chosen : List (PackageKey × Choice)
  /-- The directories of the projects that were met. -/
  visited : List Path
  deriving DecidableEq, Repr

namespace Walk

/-- The start of the walk through the dependencies of a project. -/
def start (project : Project) : Walk :=
  { pending := Requirement.ofProject project, chosen := [], visited := [project.directory] }

/-- The walk after a place is settled, with what the choice requires in front. -/
def choose (walk : Walk) (key : PackageKey) (choice : Choice)
    (requirements : List Requirement) : Walk :=
  { walk with
    pending := requirements ++ walk.pending
    chosen := Association.set key choice walk.chosen }

/-- Checks that a package has the checksum that a requirement for it is pinned to. -/
def checkPin (required : PackageUri) (computed : Checksum) : Result Unit :=
  match required.pin with
  | none => .ok ()
  | some declared =>
      if declared.agrees computed then .ok ()
      else
        .error (.resolution (.wrongPin required.unpinned.text computed.sha256
          declared.sha256))

/-- Whether a requirement for a package is met by what its place is settled to. -/
def isMet (walk : Walk) (required : PackageUri) : Result Bool :=
  match walk.chosen.lookup required.key with
  | none => .ok false
  | some (.localProject _ _) => .ok true
  | some (.remote package checksum) =>
      if package.version = required.version then
        (checkPin required checksum).map fun _ => true
      else .ok (package.version.atLeast required.version)

/-- Whether a project was met before.  Its place must not be settled to a project in
another directory. -/
def isVisited (walk : Walk) (key : PackageKey) (directory : Path) : Result Bool :=
  let visited := walk.visited.any directory.same
  match walk.chosen.lookup key with
  | some (.localProject _ other) =>
      if other.same directory then .ok visited
      else .error (.resolution (.conflictingProjects key.text other.text directory.text))
  | _ => .ok visited

/-- The package that a project in a dependency publishes. -/
def publishedPackage (project : Project) : Result PackageUri :=
  match project.package with
  | some declaration => declaration.packageUri
  | none => .error (.invalidProject (.undeclaredPackage project.directory.text))

variable {m : Type → Type} [Monad m] [MonadExceptOf Error m]

/-- Meets a requirement for a package. -/
def meetPackage (source : Source m) (walk : Walk) (required : PackageUri) : m Walk := do
  if ← MonadExcept.ofExcept (walk.isMet required) then return walk
  else
    let package := required.unpinned
    source.log (.resolving package)
    let described ← source.describe package
    MonadExcept.ofExcept (checkPin required described.checksum)
    return walk.choose required.key (.remote package described.checksum)
      (Requirement.ofMetadata described.metadata)

/-- Meets a requirement for the project at a path. -/
def meetProject (source : Source m) (walk : Walk) (path : Path) : m Walk := do
  let project ← source.load path
  let package ← MonadExcept.ofExcept (publishedPackage project)
  let directory := project.directory
  if ← MonadExcept.ofExcept (walk.isVisited package.key directory) then return walk
  else
    source.log (.visiting directory)
    let walk := { walk with visited := directory :: walk.visited }
    return walk.choose package.key (.localProject package directory)
      (Requirement.ofProject project)

/-- Meets a requirement. -/
def meet (source : Source m) (walk : Walk) : Requirement → m Walk
  | .remote package => walk.meetPackage source package
  | .listed dependency => do
      walk.meetPackage source (← MonadExcept.ofExcept dependency.package)
  | .localProject path => walk.meetProject source path

/-- The end of the walk, if it ends before that many requirements were met. -/
def run (source : Source m) : Nat → Walk → m (Option Walk)
  | 0, _ => return none
  | steps + 1, walk =>
      match walk.pending with
      | [] => return some walk
      | requirement :: rest => do
          run source steps (← meet source { walk with pending := rest } requirement)

/-- More requirements than a walk can meet in practice: only packages and projects
without end could bring up as many. -/
def stepLimit : Nat := Nat.pow 2 62

end Walk

/-! ## The manifest -/

/-- The path that leads from a directory, given by its identifier, to another one. -/
def Manifest.relativePath (root : Uri) (directory : Path) : Result String := do
  let target ← Uri.ofPath directory
  let reference := Uri.relativize target.closePath root
  match Percent.decode reference.path with
  | .error cause => throw (.malformedUri (.undecodableReference reference.text cause))
  | .ok path =>
      let trimmed := Text.trimEnd '/' path
      return if trimmed = "" then "." else trimmed

/-- The entry of a manifest for a choice, `root` being the directory of the project. -/
def Choice.entry (root : Uri) : Choice → Result ResolvedDependency
  | .remote package checksum => .ok (.remote package.toProjectPackage.text checksum)
  | .localProject package directory => do
      return .localProject package.toProjectPackage.text
        (← Manifest.relativePath root directory)

/-- The manifest that records some choices for the project in a directory. -/
def Manifest.ofChoices (directory : Path) (chosen : List (PackageKey × Choice)) :
    Result Manifest := do
  let root ← Uri.ofPath directory
  let entries ← chosen.mapM fun (key, choice) => do
    return (key.text, ← choice.entry root.closePath)
  return .ofEntries entries

/-- Settles the dependencies of a project. -/
def Project.resolve {m : Type → Type} [Monad m] [MonadExceptOf Error m] (source : Source m)
    (project : Project) : m Manifest := do
  match ← Walk.run source Walk.stepLimit (Walk.start project) with
  | some walk => MonadExcept.ofExcept (Manifest.ofChoices project.directory walk.chosen)
  | none => throw (.resolution (.endless project.directory.text))

/-- The source that finds packages with a resolver and loads projects from files. -/
def Resolver.source (resolver : Resolver) : Source Resolving where
  describe package := resolver.dependencyMetadata .unwatched package
  load path := Resolving.ofAttempt (Project.load path)
  log entry := Resolving.ofAttempt (Progress.watched.report entry.text)

end PackageResolution

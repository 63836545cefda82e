import PackageResolution.Storage.Disk

/-!
# Where packages are kept

Packages whose archives were verified are kept in memory, or in a cache directory.
Either way a package can be asked what is at a path, for a file and for the names in
a directory.  Memory keeps nothing between resolvers, so nothing is ever found
stored there.
-/

namespace PackageResolution

/-- Where packages are kept. -/
inductive Storage
  | memory
  /-- In a cache directory. -/
  | disk (cache : Path)
  deriving DecidableEq, Repr

/-- A package that is kept. -/
inductive StoredPackage
  /-- In memory, as its tree. -/
  | held (tree : PackageTree)
  /-- In a directory. -/
  | extracted (root : Path)

namespace StoredPackage

/-- The place of a path below the root of a package. -/
def placeOf (root : Path) (path : String) : Path :=
  if path = "" then root else root.join ⟨path⟩

/-- What is at a path in a package. -/
def kind? (package : StoredPackage) (path : String) : Attempt (Option ElementKind) :=
  match package with
  | .held tree => pure (tree.kind? path)
  | .extracted root => do
      let place := placeOf root path
      match ← (Action.request (.isDirectory place) : Action _) with
      | .ok true => return some .directory
      | .ok false => return some .file
      | .error .notFound => return none
      | .error refusal => throw (.io (.stat place.text) (.refused refusal))

/-- The contents of a file in a package. -/
def read (package : StoredPackage) (path : String) : Attempt ByteArray :=
  match package with
  | .held tree =>
      match tree.files.lookup path with
      | some contents => pure contents
      | none => throw (.assetNotFound path)
  | .extracted root =>
      let place := placeOf root path
      Attempt.files (.read place.text) (Action.request (.read place))

/-- The names in a directory of a package. -/
def children (package : StoredPackage) (path : String) : Attempt (List PathElement) :=
  match package with
  | .held tree => pure (tree.children path)
  | .extracted root => do
      let place := placeOf root path
      let names ← Attempt.files (.list place.text) (Action.request (.list place))
      return names.map fun entry => ⟨entry.1, entry.2⟩

end StoredPackage

namespace Storage

/-- The storage in a cache directory, which is created if it is not there. -/
def openDisk (cache : Path) : Attempt Storage := do
  Attempt.createDirectories (.createCacheDirectory cache.text) cache
  return .disk cache

/-- The metadata document that is kept of a package. -/
def metadata? (storage : Storage) (package : PackageUri) : Attempt (Option ByteArray) :=
  match storage with
  | .memory => pure none
  | .disk cache => loadMetadata cache package

/-- Keeps the metadata document of a package. -/
def keepMetadata (storage : Storage) (package : PackageUri) (document : ByteArray) :
    Attempt Unit :=
  match storage with
  | .memory => pure ()
  | .disk cache => storeMetadata cache package document

/-- The package that is kept already. -/
def package? (storage : Storage) (package : PackageUri) : Attempt (Option StoredPackage) :=
  match storage with
  | .memory => pure none
  | .disk cache => do
      return (← (storedRoot? cache package : Action _)).map .extracted

/-- Keeps the package with the given archive. -/
def keep [ArchiveReader] (storage : Storage) (package : PackageUri) (archive : ByteArray) :
    Attempt StoredPackage :=
  match storage with
  | .memory => do return .held (← Attempt.ofResult (treeOfArchive package archive))
  | .disk cache => do return .extracted (← materialize cache package archive)

end Storage

end PackageResolution

import PackageResolution.Archive.Entry

/-!
# Trees of packages

The contents of a package in memory: files by their paths, and the set of all
directories.  A path is the names from the root of the package, joined by slashes,
and the root has the empty path.  With a directory all directories above it are
there.
-/

namespace PackageResolution

/-- What can stand at a path in a package. -/
inductive ElementKind
  | file
  | directory
  deriving DecidableEq, Repr

/-- A name in a directory of a package. -/
structure PathElement where
  /-- The name. -/
  name : String
  /-- Whether a directory has the name. -/
  isDirectory : Bool
  deriving DecidableEq, Repr

/-- The contents of a package. -/
structure PackageTree where
  /-- The files by their paths. -/
  files : List (String × ByteArray)
  /-- The paths of the directories. -/
  directories : List String

namespace PackageTree

/-- The tree of a package without contents. -/
def empty : PackageTree :=
  { files := [], directories := [""] }

/-- The path of a directory and the paths of those above it, the root not among
them, from the innermost. -/
def lineage (path : String) : List String :=
  go path.length path
where
  /-- At most `count + 1` directories from `path` upward. -/
  go : Nat → String → List String
    | 0, path => [path]
    | count + 1, path =>
        match Text.cutLast? '/' path with
        | none => [path]
        | some (above, _) => path :: go count above

/-- Some directories with those of a lineage that come before the first which is
there already. -/
def addLineage (directories : List String) : List String → List String
  | [] => directories
  | path :: above =>
      if path ∈ directories then directories else addLineage (path :: directories) above

/-- The tree with a directory and those above it. -/
def addDirectory (tree : PackageTree) (path : String) : PackageTree :=
  { tree with directories := addLineage tree.directories (lineage path) }

/-- The tree with a file, instead of one with the same path, and the directories
above it. -/
def addFile (tree : PackageTree) (path : String) (contents : ByteArray) : PackageTree :=
  let tree :=
    match Text.cutLast? '/' path with
    | some (above, _) => tree.addDirectory above
    | none => tree
  { tree with files := (path, contents) :: tree.files.filter (·.1 ≠ path) }

/-- What is at a path.  Where both a file and a directory are, it is the file. -/
def kind? (tree : PackageTree) (path : String) : Option ElementKind :=
  if (tree.files.lookup path).isSome then some .file
  else if path ∈ tree.directories then some .directory
  else none

/-- The name of `path` in the directory `parent`, if it is a path in it. -/
def childName? (parent path : String) : Option String :=
  (Text.dropStart? (if parent = "" then "" else parent ++ "/") path).filter fun rest =>
    rest != "" && !Text.has '/' rest

/-- The names in a directory. -/
def children (tree : PackageTree) (path : String) : List PathElement :=
  (tree.directories.filterMap (childName? path)).map (⟨·, true⟩) ++
    ((tree.files.map Prod.fst).filterMap (childName? path)).map (⟨·, false⟩)

end PackageTree

end PackageResolution

import PackageResolution.FileTree.Lookup

/-!
# Operations on files

The operations of a file system, as functions on the tree.  Paths are taken from the
directory `current`.  An operation that is refused leaves the tree as it was.
-/

namespace PackageResolution.FileTree

/-- Whether a path leads to a directory; a path that leads nowhere is an error. -/
def isDirectory (tree : FileTree) (current : Location) (path : Path) :
    Except OsError Bool :=
  (tree.findNode true current path).map fun found => found.2.isDirectory

/-- The contents of a file. -/
def read (tree : FileTree) (current : Location) (path : Path) : Except OsError ByteArray :=
  match tree.findNode true current path with
  | .ok (_, .file contents) => .ok contents
  | .ok _ => .error .isADirectory
  | .error refusal => .error refusal

/-- The names in a directory, each with whether it is a directory.  A link is none. -/
def list (tree : FileTree) (current : Location) (path : Path) :
    Except OsError (List (String × Bool)) :=
  match tree.findNode true current path with
  | .ok (location, .directory) =>
      .ok ((tree.children location).map fun child => (child.1, child.2.isDirectory))
  | .ok _ => .error .notADirectory
  | .error refusal => .error refusal

/-- The path of the place that a path leads to. -/
def canonical (tree : FileTree) (current : Location) (path : Path) : Except OsError Path :=
  (tree.findNode true current path).map fun found => pathOf found.1

/-- The tree with an empty directory at a path that leads to nothing. -/
def createDirectory (tree : FileTree) (current : Location) (path : Path) :
    Except OsError FileTree :=
  match tree.find false current path with
  | .ok (.vacant location) => .ok (tree.insert location .directory)
  | .ok (.occupied _ _) => .error .exists
  | .error refusal => .error refusal

/-- The tree with an empty file at a path that leads to nothing. -/
def createFile (tree : FileTree) (current : Location) (path : Path) :
    Except OsError FileTree :=
  match tree.find false current path with
  | .ok (.vacant location) =>
      if Text.endsWith '/' path.text then .error .isADirectory
      else .ok (tree.insert location (.file .empty))
  | .ok (.occupied _ _) => .error .exists
  | .error refusal => .error refusal

/-- The tree with a file of the given contents at a path. -/
def write (tree : FileTree) (current : Location) (path : Path) (contents : ByteArray) :
    Except OsError FileTree :=
  match tree.find true current path with
  | .ok (.vacant location) =>
      if Text.endsWith '/' path.text then .error .isADirectory
      else .ok (tree.insert location (.file contents))
  | .ok (.occupied location (.file _)) => .ok (tree.insert location (.file contents))
  | .ok (.occupied _ _) => .error .isADirectory
  | .error refusal => .error refusal

/-- The tree with a symbolic link at a path that leads to nothing. -/
def createLink (tree : FileTree) (current : Location) (path : Path) (target : String) :
    Except OsError FileTree :=
  match tree.find false current path with
  | .ok (.vacant location) => .ok (tree.insert location (.link target))
  | .ok (.occupied _ _) => .error .exists
  | .error refusal => .error refusal

/-- Why a node cannot take the place of another, if it cannot: a directory can take
that of an empty directory, and anything else that of anything else. -/
def clash? (tree : FileTree) (source target : FileNode) (location : Location) :
    Option OsError :=
  match source.isDirectory, target.isDirectory with
  | true, true => if tree.children location = [] then none else some .notEmpty
  | true, false => some .notADirectory
  | false, true => some .isADirectory
  | false, false => none

/-- Whether a path ends with a name, so that something can be put under that name. -/
def endsWithName (path : Path) : Bool :=
  match (names path.text).getLast? with
  | some name => name ≠ "." && name ≠ ".."
  | none => false

/-- The tree with everything at one path moved to another.  Only a directory can be moved
to a path that ends with a slash. -/
def rename (tree : FileTree) (current : Location) (source target : Path) :
    Except OsError FileTree := do
  let (start, node) ← tree.findNode false current source
  let goal ← tree.find false current target
  if !endsWithName target then throw (.other "Device or resource busy (os error 16)")
  else if !node.isDirectory && Text.endsWith '/' target.text then throw .notADirectory
  else
    match goal with
    | .vacant location =>
        if node.isDirectory && isBelow start location then
          throw (.other "Invalid argument (os error 22)")
        else return tree.move start location
    | .occupied location other =>
        if start = location then return tree
        else if node.isDirectory && isBelow start location then
          throw (.other "Invalid argument (os error 22)")
        else
          match tree.clash? node other location with
          | some refusal => throw refusal
          | none => return tree.move start location

/-- The tree without the file or link at a path. -/
def removeFile (tree : FileTree) (current : Location) (path : Path) :
    Except OsError FileTree := do
  let (location, node) ← tree.findNode false current path
  if node.isDirectory then throw .isADirectory else return tree.erase location

/-- The tree without what is at a path and everything below it. -/
def removeTree (tree : FileTree) (current : Location) (path : Path) :
    Except OsError FileTree := do
  let (location, _) ← tree.findNode false current path
  return tree.erase location

end PackageResolution.FileTree

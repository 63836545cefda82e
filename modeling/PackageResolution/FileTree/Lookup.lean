import PackageResolution.FileTree.Basic
import PackageResolution.OsError
import PackageResolution.Path

/-!
# Following paths

A path is followed from a directory, or from the root if it begins with a slash.
Each of its names must be found in a directory, so a path through a file leads
nowhere; `..` leads to the directory above, and nowhere else from the root.  A
symbolic link on the way is replaced by its target, and at the end of the way if the
caller follows it or the path ends with a slash.
-/

namespace PackageResolution.FileTree

/-- Where a path leads. -/
inductive Destination
  /-- To a place with something at it. -/
  | occupied (location : Location) (node : FileNode)
  /-- To a name that a directory does not have. -/
  | vacant (location : Location)

/-- How many links can be followed on one way. -/
def linkLimit : Nat := 40

/-- How many bytes a name can have. -/
def nameLimit : Nat := 255

/-- How many bytes a path can have, with one for its end. -/
def pathLimit : Nat := 4096

/-- The names of a path without the empty ones between slashes. -/
def names (path : String) : List String :=
  (Text.fields '/' path).filter (· ≠ "")

/-- The end of the way along `names` from the directory `current`.  `closed` says
that the way must end at a directory, and `onLink` goes on where a link is followed. -/
def walkTo (tree : FileTree) (follow : Bool)
    (onLink : Bool → Location → List String → Except OsError Destination) (closed : Bool)
    (current : Location) : List String → Except OsError Destination
  | [] => .ok (.occupied current .directory)
  | name :: rest =>
      if name = "." then walkTo tree follow onLink closed current rest
      else if name = ".." then walkTo tree follow onLink closed current.dropLast rest
      else if nameLimit < name.utf8ByteSize then .error .nameTooLong
      else
        let location := current ++ [name]
        match tree.get? location with
        | none => if rest = [] then .ok (.vacant location) else .error .notFound
        | some .directory => walkTo tree follow onLink closed location rest
        | some (.file contents) =>
            if rest = [] ∧ closed = false then .ok (.occupied location (.file contents))
            else .error .notADirectory
        | some (.link target) =>
            if rest = [] ∧ closed = false ∧ follow = false then
              .ok (.occupied location (.link target))
            else
              onLink (closed || (rest = [] && Text.endsWith '/' target))
                (if Text.beginsWith '/' target then [] else current) (names target ++ rest)

/-- The end of the way along names from a directory, on which at most `budget` links
are followed. -/
def walk (tree : FileTree) (follow : Bool) :
    Nat → Bool → Location → List String → Except OsError Destination
  | 0 => walkTo tree follow fun _ _ _ => .error .linkLoop
  | budget + 1 => walkTo tree follow (walk tree follow budget)

/-- Where a path leads from the directory `current`. -/
def find (tree : FileTree) (follow : Bool) (current : Location) (path : Path) :
    Except OsError Destination :=
  if Text.has '\x00' path.text then .error .nulInPath
  else if path.text = "" then .error .notFound
  else if pathLimit ≤ path.text.utf8ByteSize then .error .nameTooLong
  else
    walk tree follow linkLimit (Text.endsWith '/' path.text)
      (if path.isAbsolute then [] else current) (names path.text)

/-- The place that a path leads to, which must be occupied. -/
def findNode (tree : FileTree) (follow : Bool) (current : Location) (path : Path) :
    Except OsError (Location × FileNode) :=
  match tree.find follow current path with
  | .ok (.occupied location node) => .ok (location, node)
  | .ok (.vacant _) => .error .notFound
  | .error refusal => .error refusal

/-- The path of a place. -/
def pathOf (location : Location) : Path :=
  ⟨"/" ++ "/".intercalate location⟩

end PackageResolution.FileTree

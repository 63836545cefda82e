import PackageResolution.Uri.Basic
import PackageResolution.Uri.DotSegments

/-!
# Relative references

`Uri.relativize full base` is the shortest climb from the directory of `base`
followed by the descent to `full`.  It is read as a relative path whatever the
names in it: a `./` goes first where the text would otherwise be empty, begin
with a slash, or be read as a scheme.
-/

namespace PackageResolution.Uri

/-- The directories of a path and its last name; empty names are kept. -/
def directoriesAndName (path : String) : List String × String :=
  let names := UriPath.segments path
  (names.dropLast, names.getLastD "")

/-- How many names two lists have in common at their start. -/
def commonLength : List String → List String → Nat
  | a :: as, b :: bs => if a = b then commonLength as bs + 1 else 0
  | _, _ => 0

/-- The climb from one list of directories and the descent to a name below
another. -/
def descent (fromDirectories toDirectories : List String) (name : String) : String :=
  let shared := commonLength fromDirectories toDirectories
  let climb := List.replicate (fromDirectories.length - shared) "../"
  let names := (toDirectories.drop shared).map (· ++ "/")
  String.join climb ++ String.join names ++ name

/-- The path with a `./` where it would be read as something else. -/
def guarded (path : String) : String :=
  let first := (Text.fields '/' path).headD ""
  if first = "" || Text.has ':' first then "./" ++ path else path

/-- The reference that leads from `base` to `full`, or `full` itself where there is
none.  Identifiers of files lose their query and fragment. -/
def relativize (full base : Uri) : Uri :=
  let fullPath := UriPath.removeDots full.path
  let basePath := UriPath.removeDots base.path
  if full.isOpaque || base.isOpaque || full.scheme ≠ base.scheme ||
      full.authority ≠ base.authority ||
      Text.beginsWith '/' fullPath ≠ Text.beginsWith '/' basePath then
    full
  else
    let (fullDirectories, name) := directoriesAndName fullPath
    let (baseDirectories, _) := directoriesAndName basePath
    let isFile : Bool := full.scheme = some "file"
    { scheme := none
      authority := none
      path := guarded (descent baseDirectories fullDirectories name)
      query := if isFile then none else full.query
      fragment := if isFile then none else full.fragment }

end PackageResolution.Uri

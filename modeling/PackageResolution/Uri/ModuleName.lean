import PackageResolution.Uri.Basic

/-!
# Names of modules

A module is named after the last part of its identifier: the last dotted name of a
built-in module, and the file name without its extension of any other.
-/

namespace PackageResolution.Uri

/-- The part of an identifier that holds the file name of its module. -/
def namingPath (uri : Uri) : String :=
  if uri.scheme = some "package" ∨ uri.scheme = some "projectpackage" then
    uri.fragment.getD ""
  else if uri.scheme = some "jar" then
    match Text.cut? '!' uri.path with
    | some (_, entry) => entry
    | none => uri.path
  else uri.path

/-- A file name without its extension; a name that is all extension is kept. -/
def stem (fileName : String) : String :=
  match Text.cutLast? '.' fileName with
  | some (before, _) => if before = "" then fileName else before
  | none => fileName

/-- The name of the module that an identifier names. -/
def moduleName (uri : Uri) : String :=
  if uri.scheme = some "pkl" then Text.lastField '.' uri.path
  else stem (Text.lastField '/' uri.namingPath)

end PackageResolution.Uri

import PackageResolution.Uri.Basic
import PackageResolution.Uri.DotSegments

/-!
# Following references

A reference is followed from a base identifier.  The parts that it writes
replace those of the base, and a relative path is taken from the directory of the
base.  In an archive identifier `jar:ARCHIVE!ENTRY` only the entry is a
hierarchy: it is followed like a path of its own and the archive stays.
-/

namespace PackageResolution.Uri

/-- The directory part of a path, with its last slash. -/
def directoryOf (path : String) : String :=
  match Text.cutLast? '/' path with
  | some (before, _) => before ++ "/"
  | none => ""

/-- A relative path taken from the directory of the base.  The empty path after an
authority counts as the root. -/
def merge (base : Uri) (path : String) : String :=
  if base.authority.isSome && base.path = "" then "/" ++ path
  else directoryOf base.path ++ path

/-- A reference without scheme followed from a base that is a hierarchy. -/
def follow (base reference : Uri) : Uri :=
  if reference.authority.isSome then
    { reference with
      scheme := base.scheme, path := UriPath.removeDots reference.path }
  else if reference.path = "" then
    { base with
      query := reference.query.or base.query, fragment := reference.fragment }
  else
    let path :=
      if Text.beginsWith '/' reference.path then reference.path
      else merge base reference.path
    { scheme := base.scheme
      authority := base.authority
      path := UriPath.removeDots path
      query := reference.query
      fragment := reference.fragment }

/-- The entry of an archive identifier as an identifier of its own. -/
def entryReference (base : Uri) (entry : String) : Uri :=
  { scheme := none, authority := none, path := entry, query := base.query, fragment := none }

/-- A reference without scheme followed inside an archive, unless it has an
authority and so leaves it. -/
def followInArchive? (base reference : Uri) : Option Uri :=
  match Text.cut? '!' base.path with
  | none => none
  | some (archive, entry) =>
      let followed := follow (entryReference base entry) reference
      if followed.authority.isSome then none
      else
        some { scheme := base.scheme
               authority := none
               path := archive ++ "!" ++ followed.path
               query := followed.query
               fragment := followed.fragment }

/-- A reference without scheme followed from any base; a base that is no hierarchy
gives it back. -/
def followPlain (base reference : Uri) : Uri :=
  if base.isOpaque then reference else follow base reference

/-- The identifier that `reference` means where `base` is read. -/
def resolve (base reference : Uri) : Uri :=
  if reference.isAbsolute then reference
  else if base.scheme = some "jar" then
    (followInArchive? base reference).getD (followPlain base reference)
  else followPlain base reference

end PackageResolution.Uri

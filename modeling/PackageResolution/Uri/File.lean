import PackageResolution.Error
import PackageResolution.Path
import PackageResolution.Text.Percent
import PackageResolution.Uri.Basic

/-!
# Identifiers of local files

An absolute file path and an identifier with the scheme `file` name each other.
The characters that an identifier reads as marks are escaped on the way out and
decoded on the way back.
-/

namespace PackageResolution.Uri

/-- Whether a byte of a path is escaped in an identifier: the control characters
and those that an identifier or its surroundings would read as marks. -/
def isEscapedInPath (b : UInt8) : Bool :=
  b < 0x20 || b == 0x7F ||
    [' ', '"', '#', '%', '<', '>', '?', '\x60', '\x7b', '\x7d'].any fun c =>
      b.toNat == c.toNat

/-- The identifier of an absolute path. -/
def ofPath (path : Path) : Result Uri :=
  if path.isAbsolute then
    .ok { scheme := some "file"
          authority := some ""
          path := Percent.encodeWhere isEscapedInPath (Text.replace '\\' '/' path.text)
          query := none
          fragment := none }
  else .error (.invalidArgument (.relativePath path.text))

/-- Whether an authority is that of the local host. -/
def isLocalAuthority : Option String → Bool
  | none => true
  | some authority => authority = "" || authority = "localhost"

/-- The path that an identifier names; none if it names something other than a
local file. -/
def toPath (uri : Uri) : Result (Option Path) :=
  if !uri.isAbsolute then .error (.invalidArgument (.relativeUri uri.text))
  else if uri.scheme = some "file" && Text.beginsWith '/' uri.path &&
      isLocalAuthority uri.authority then
    match Percent.decode uri.path with
    | .ok text => .ok (some ⟨text⟩)
    | .error cause => .error (.malformedUri (.undecodablePath uri.text cause))
  else .ok none

end PackageResolution.Uri

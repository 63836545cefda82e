import PackageResolution.Text.Cut
import PackageResolution.Text.Decimal

/-!
# Resource identifiers

An identifier has five parts, of which all but the path can be absent.  An absent
part and an empty one are different: `file:/x` has no authority and `file:///x`
has an empty one.  The written form `Uri.text` keeps the difference, so equal
texts come from equal parts.
-/

namespace PackageResolution

/-- A resource identifier or a reference to one. -/
structure Uri where
  /-- The text before the first colon. -/
  scheme : Option String
  /-- The text after two slashes. -/
  authority : Option String
  /-- The text that names the resource. -/
  path : String
  /-- The text after a question mark. -/
  query : Option String
  /-- The text after a number sign. -/
  fragment : Option String
  deriving DecidableEq, Repr

namespace Uri

/-- A part with a mark before it, or nothing if it is absent. -/
def marked (mark : String) : Option String → String
  | none => ""
  | some part => mark ++ part

/-- A part with a mark after it, or nothing if it is absent. -/
def closed (mark : String) : Option String → String
  | none => ""
  | some part => part ++ mark

/-- The written form of an identifier. -/
def text (uri : Uri) : String :=
  closed ":" uri.scheme ++ marked "//" uri.authority ++ uri.path ++
    marked "?" uri.query ++ marked "#" uri.fragment

instance : ToString Uri := ⟨text⟩

/-- Whether the identifier has a scheme. -/
def isAbsolute (uri : Uri) : Bool :=
  uri.scheme.isSome

/-- Whether the identifier has a scheme and a body that is no hierarchy of
names. -/
def isOpaque (uri : Uri) : Bool :=
  uri.scheme.isSome && uri.authority.isNone && !Text.beginsWith '/' uri.path

/-- The identifier with a slash at the end of its path, if it is a hierarchy. -/
def closePath (uri : Uri) : Uri :=
  if uri.isOpaque || Text.endsWith '/' uri.path then uri
  else { uri with path := uri.path ++ "/" }

/-! ## Parts of the authority -/

/-- The number that decimal digits write, if it is below `2 ^ 16`. -/
def portNumber? (digits : String) : Option Nat :=
  (Text.decimal? digits).filter (· < Nat.pow 2 16)

/-- The authority after its user information. -/
def hostAndPort? (uri : Uri) : Option String :=
  uri.authority.map (Text.lastField '@')

/-- A host and the digits after its last colon.  The colons inside the brackets
of a numeric host do not count. -/
def splitPort? (hostAndPort : String) : Option (String × String) :=
  match Text.cutLast? ':' hostAndPort with
  | none => none
  | some (host, digits) =>
      if Text.beginsWith '[' host && !Text.endsWith ']' host then none
      else if digits.toList.all Char.isDigit then some (host, digits)
      else none

/-- The user information of the authority. -/
def userInfo? (uri : Uri) : Option String :=
  uri.authority.bind fun authority => (Text.cutLast? '@' authority).map Prod.fst

/-- The host of the authority. -/
def host? (uri : Uri) : Option String :=
  uri.hostAndPort?.map fun hostAndPort =>
    match splitPort? hostAndPort with
    | some (host, _) => host
    | none => hostAndPort

/-- The number after the host of the authority. -/
def hostPort? (uri : Uri) : Option Nat :=
  (uri.hostAndPort?.bind splitPort?).bind fun parts => portNumber? parts.2

end Uri

end PackageResolution

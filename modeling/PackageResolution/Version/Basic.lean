import PackageResolution.Text.Cut
import PackageResolution.Text.CharClass
import PackageResolution.Text.Quoted

/-!
# Semantic versions

A version has three numbers, an optional pre-release part and optional build
metadata.  The two optional parts are texts of identifiers joined by dots; an
absent part is the empty text, which no written part is equal to.  The numbers
are bounded by `Version.limit`.  A version carries the proof that its parts are
well written, so its text can always be read back.
-/

namespace PackageResolution

namespace Version

/-- The first number that is too large for a version number. -/
def limit : Nat := Nat.pow 2 64

/-- The parts of a version that a syntax error can be about. -/
inductive Part
  | major
  | minor
  | patch
  | preRelease
  | build
  deriving DecidableEq, Repr

/-- The name of a part in messages. -/
def Part.name : Part → String
  | .major => "major version number"
  | .minor => "minor version number"
  | .patch => "patch version number"
  | .preRelease => "pre-release identifier"
  | .build => "build metadata"

/-- Why a text is no version. -/
inductive SyntaxError
  | empty
  | unexpectedEnd (part : Part)
  | unexpectedChar (part : Part) (c : Char)
  | unexpectedCharAfter (part : Part) (c : Char)
  | leadingZero (part : Part)
  | overflow (part : Part)
  | emptySegment (part : Part)
  deriving DecidableEq, Repr

/-- The wording of a syntax error. -/
def SyntaxError.message : SyntaxError → String
  | .empty => "empty string, expected a semver version"
  | .unexpectedEnd part => s!"unexpected end of input while parsing {part.name}"
  | .unexpectedChar part c =>
      s!"unexpected character {Text.quotedChar c} while parsing {part.name}"
  | .unexpectedCharAfter part c =>
      s!"unexpected character {Text.quotedChar c} after {part.name}"
  | .leadingZero part => s!"invalid leading zero in {part.name}"
  | .overflow part => s!"value of {part.name} exceeds u64::MAX"
  | .emptySegment part => s!"empty identifier segment in {part.name}"

/-- Whether a character may stand in an identifier. -/
def isIdentifierChar (c : Char) : Bool :=
  c.isAlphanum || c == '-'

/-- What is wrong with one identifier of `part`, if anything.  Only pre-release
identifiers are compared as numbers, so only they may not begin with zeros. -/
def segmentFault? (part : Part) (segment : List Char) : Option SyntaxError :=
  if segment = [] then some (.emptySegment part)
  else if part = .preRelease ∧ segment.all Char.isDigit ∧ segment.length > 1 ∧
      segment.head? = some '0' then
    some (.leadingZero part)
  else none

/-- Whether a character may stand in identifiers that are joined by dots. -/
def isPartChar (c : Char) : Bool :=
  isIdentifierChar c || c == '.'

/-- Whether some characters are identifiers of `part`, joined by dots. -/
def isPart (part : Part) (chars : List Char) : Bool :=
  chars != [] && chars.all isPartChar &&
    ((chars.splitOn '.').findSome? (segmentFault? part)).isNone

end Version

/-- A semantic version. -/
structure Version where
  /-- Incompatible changes count here. -/
  major : Nat
  /-- Compatible additions count here. -/
  minor : Nat
  /-- Compatible corrections count here. -/
  patch : Nat
  /-- The pre-release identifiers, joined by dots. -/
  preRelease : String
  /-- The build identifiers, joined by dots. -/
  build : String
  /-- The numbers are not too large. -/
  bounded : major < Version.limit ∧ minor < Version.limit ∧ patch < Version.limit
  /-- The pre-release part is absent or well written. -/
  preRelease_valid :
    preRelease.toList = [] ∨ Version.isPart .preRelease preRelease.toList = true
  /-- The build part is absent or well written. -/
  build_valid : build.toList = [] ∨ Version.isPart .build build.toList = true
  deriving DecidableEq, Repr

namespace Version

/-- The written form of a version. -/
def text (version : Version) : String :=
  let release := s!"{version.major}.{version.minor}.{version.patch}"
  let preRelease := if version.preRelease = "" then "" else "-" ++ version.preRelease
  let build := if version.build = "" then "" else "+" ++ version.build
  release ++ preRelease ++ build

instance : ToString Version := ⟨text⟩

end Version

end PackageResolution

import PackageResolution.Text.Decimal
import PackageResolution.Version.Basic

/-!
# Reading versions

A version is read from the left: three numbers with dots between them, then a
part after `-`, then a part after `+`.  Numbers have no leading zero, nor have
pre-release identifiers that are numbers; identifiers consist of ASCII letters,
digits and `-` and are not empty.  Of several faults the leftmost is reported.
-/

namespace PackageResolution.Version

/-- A number at the start of the characters, and the characters after it. -/
def number (part : Part) (chars : List Char) :
    Except SyntaxError ({ value : Nat // value < limit } × List Char) :=
  let digits := chars.takeWhile Char.isDigit
  let rest := chars.dropWhile Char.isDigit
  match digits with
  | [] =>
      match rest with
      | [] => .error (.unexpectedEnd part)
      | c :: _ => .error (.unexpectedChar part c)
  | first :: more =>
      if first = '0' ∧ more ≠ [] then .error (.leadingZero part)
      else if large : limit ≤ Text.valueOf digits then .error (.overflow part)
      else .ok (⟨Text.valueOf digits, Nat.lt_of_not_le large⟩, rest)

/-- The characters after a dot that ends `part`. -/
def dot (part : Part) : List Char → Except SyntaxError (List Char)
  | '.' :: rest => .ok rest
  | [] => .error (.unexpectedEnd part)
  | c :: _ => .error (.unexpectedCharAfter part c)

/-- What stands where the identifiers of `part` do not have a fault. -/
theorem isPart_of_findSome? {part : Part} {run : List Char} (filled : run ≠ [])
    (plain : run.all isPartChar = true)
    (flawless : (run.splitOn '.').findSome? (segmentFault? part) = none) :
    isPart part run = true := by
  simp only [isPart, plain, flawless, Option.isNone_none, Bool.and_true, bne_iff_ne, ne_eq]
  exact filled

/-- The identifiers at the start of the characters, and the characters after
them. -/
def identifiers (part : Part) (chars : List Char) :
    Except SyntaxError ({ run : List Char // isPart part run = true } × List Char) :=
  let run := chars.takeWhile isPartChar
  let rest := chars.dropWhile isPartChar
  if filled : run = [] then .error (.emptySegment part)
  else
    match flawless : (run.splitOn '.').findSome? (segmentFault? part) with
    | some fault => .error fault
    | none => .ok (⟨run, isPart_of_findSome? filled List.all_takeWhile flawless⟩, rest)

/-- The part after `sign`, or the empty one if the characters do not begin with
`sign`, and the characters after it. -/
def optionalPart (part : Part) (sign : Char) (chars : List Char) :
    Except SyntaxError
      ({ run : List Char // run = [] ∨ isPart part run = true } × List Char) :=
  match chars with
  | [] => .ok (⟨[], .inl rfl⟩, [])
  | c :: rest =>
      if c = sign then
        (identifiers part rest).map fun parts => (⟨parts.1.1, .inr parts.1.2⟩, parts.2)
      else .ok (⟨[], .inl rfl⟩, chars)

/-- The part of a version that the character after its identifiers follows. -/
def lastPart (preRelease build : List Char) : Part :=
  if build ≠ [] then .build else if preRelease ≠ [] then .preRelease else .patch

/-- The version that the characters write. -/
def parseChars (chars : List Char) : Except SyntaxError Version := do
  if chars = [] then throw .empty
  let (⟨major, majorBounded⟩, rest) ← number .major chars
  let (⟨minor, minorBounded⟩, rest) ← number .minor (← dot .major rest)
  let (⟨patch, patchBounded⟩, rest) ← number .patch (← dot .minor rest)
  let (⟨preRelease, preReleaseValid⟩, rest) ← optionalPart .preRelease '-' rest
  let (⟨build, buildValid⟩, rest) ← optionalPart .build '+' rest
  match rest with
  | [] =>
      return {
        major, minor, patch
        preRelease := String.ofList preRelease
        build := String.ofList build
        bounded := ⟨majorBounded, minorBounded, patchBounded⟩
        preRelease_valid := by rwa [String.toList_ofList]
        build_valid := by rwa [String.toList_ofList] }
  | c :: _ => throw (.unexpectedCharAfter (lastPart preRelease build) c)

/-- The version that a text writes. -/
def parse (text : String) : Except SyntaxError Version :=
  parseChars text.toList

end PackageResolution.Version

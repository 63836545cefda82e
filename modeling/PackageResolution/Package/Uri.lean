import PackageResolution.Checksum
import PackageResolution.Path
import PackageResolution.Uri.Basic
import PackageResolution.Uri.DotSegments
import PackageResolution.Version.Parse

/-!
# Package identifiers

A package is named by an authority, a path and a version, and can be pinned to the
checksum of its metadata document:

`package://AUTHORITY/PATH@VERSION::sha256:DIGEST`

The authority ends at the first slash, the pin begins at the first `::` after it
and the version at the last `@` before the pin.  Two versions with the same major
number compete for the same place in a project, the place of their `PackageKey`.
A package carries the proof that its authority and its path are those of an
identifier, so nothing in them is mistaken for a mark.
-/

namespace PackageResolution

/-- How a package is to be found. -/
inductive PackageScheme
  /-- At its server. -/
  | package
  /-- Through the dependencies that a project has settled on. -/
  | projectPackage
  deriving DecidableEq, Repr

/-- The written form of a scheme. -/
def PackageScheme.text : PackageScheme → String
  | .package => "package"
  | .projectPackage => "projectpackage"

namespace PackageUri

/-- Whether a segment may stand in the path of a package. -/
def isPlainSegment (segment : String) : Bool :=
  segment != "" && segment != "." && segment != ".."

/-- The characters before the first `::` and those after it. -/
def cutPin? : List Char → Option (List Char × List Char)
  | ':' :: ':' :: after => some ([], after)
  | [] => none
  | c :: rest => (cutPin? rest).map fun parts => (c :: parts.1, parts.2)

/-- Whether a text can be the authority of a package. -/
def isAuthority (text : String) : Bool :=
  text != "" && !Text.has '/' text && !Text.has '#' text

/-- Whether a text can be the path of a package: a slash stands before each of its
segments, which are plain, and neither a fragment nor a pin begins in it. -/
def isPath (text : String) : Bool :=
  Text.beginsWith '/' text && (UriPath.segments text).all isPlainSegment &&
    !Text.has '#' text && (cutPin? text.toList).isNone

end PackageUri

/-- The name of a version of a package. -/
structure PackageUri where
  /-- How the package is to be found. -/
  scheme : PackageScheme
  /-- The host of the package, and its number if it has one. -/
  authority : String
  /-- The path of the package at its host, with a slash before each segment. -/
  path : String
  /-- The version. -/
  version : Version
  /-- The checksum that the metadata document must have. -/
  pin : Option Checksum
  /-- The authority ends where the path begins. -/
  authority_valid : PackageUri.isAuthority authority = true
  /-- The path ends where the version begins. -/
  path_valid : PackageUri.isPath path = true
  deriving DecidableEq, Repr

/-- The place that the versions of a package with one major number share. -/
structure PackageKey where
  /-- The host of the package. -/
  authority : String
  /-- The path of the package at its host. -/
  path : String
  /-- The major number of the versions. -/
  major : Nat
  /-- The authority is that of a package. -/
  authority_valid : PackageUri.isAuthority authority = true
  /-- The path is that of a package. -/
  path_valid : PackageUri.isPath path = true
  deriving DecidableEq, Repr

/-- The written form of a key. -/
def PackageKey.text (key : PackageKey) : String :=
  s!"package://{key.authority}{key.path}@{key.major}"

instance : ToString PackageKey := ⟨PackageKey.text⟩

namespace PackageUri

/-- The path of a package with its version. -/
def versionedPath (package : PackageUri) : String :=
  package.path ++ "@" ++ package.version.text

/-- The written form of a package identifier. -/
def text (package : PackageUri) : String :=
  package.scheme.text ++ "://" ++ package.authority ++ package.versionedPath ++
    match package.pin with
    | none => ""
    | some pin => "::" ++ pin.text

instance : ToString PackageUri := ⟨text⟩

/-- The scheme of a package identifier and the text after it. -/
def splitScheme? (text : String) : Option (PackageScheme × String) :=
  match Text.dropStart? "package://" text with
  | some rest => some (.package, rest)
  | none => (Text.dropStart? "projectpackage://" text).map fun rest => (.projectPackage, rest)

/-- The text before the pin and the text of the pin.  An authority can contain
`::` as well, so the pin is looked for after the first slash. -/
def splitPin (text : String) : String × Option String :=
  let authority := text.toList.takeWhile (· != '/')
  match cutPin? (text.toList.dropWhile (· != '/')) with
  | some (before, pin) => (String.ofList (authority ++ before), some (String.ofList pin))
  | none => (text, none)

/-! ## Reading -/

theorem eq_append_of_cutPin? {text before after : List Char}
    (found : cutPin? text = some (before, after)) :
    text = before ++ ':' :: ':' :: after ∧ cutPin? before = none := by
  fun_induction cutPin? text generalizing before with
  | case1 rest =>
      simp only [Option.some.injEq, Prod.mk.injEq] at found
      obtain ⟨rfl, rfl⟩ := found
      exact ⟨rfl, rfl⟩
  | case2 => exact absurd found (by simp)
  | case3 c rest unmarked inductionHypothesis =>
      simp only [Option.map_eq_some_iff, Prod.exists, Prod.mk.injEq] at found
      obtain ⟨first, second, found, rfl, rfl⟩ := found
      obtain ⟨whole, clear⟩ := inductionHypothesis found
      refine ⟨by rw [whole, List.cons_append], ?_⟩
      cases first with
      | nil => simp [cutPin?]
      | cons d first =>
          rw [cutPin?, clear, Option.map_none]
          rintro after rfl same
          cases same
          exact unmarked _ rfl whole

theorem cutPin?_append {text before pin : List Char} (after : List Char)
    (found : cutPin? text = some (before, pin)) :
    cutPin? (text ++ after) = some (before, pin ++ after) := by
  fun_induction cutPin? text generalizing before with
  | case1 rest =>
      simp only [Option.some.injEq, Prod.mk.injEq] at found
      obtain ⟨rfl, rfl⟩ := found
      rfl
  | case2 => exact absurd found (by simp)
  | case3 c rest unmarked inductionHypothesis =>
      simp only [Option.map_eq_some_iff, Prod.exists, Prod.mk.injEq] at found
      obtain ⟨first, second, found, rfl, rfl⟩ := found
      rw [List.cons_append, cutPin?, inductionHypothesis found, Option.map_some]
      rintro last rfl continued
      cases rest with
      | nil => exact absurd found (by simp [cutPin?])
      | cons d rest => exact unmarked _ rfl (by rw [(List.cons.inj continued).1])

/-- Where no pin begins in a text, none begins in its start. -/
theorem cutPin?_eq_none_of_append {before after : List Char}
    (clear : cutPin? (before ++ after) = none) : cutPin? before = none := by
  cases found : cutPin? before with
  | none => rfl
  | some parts =>
      rw [cutPin?_append after found] at clear
      exact absurd clear (by simp)

/-- What is known of the text before the pin: no fragment begins in it, and no pin after
its first slash. -/
def IsMain (main : String) : Prop :=
  '#' ∉ main.toList ∧ cutPin? (main.toList.dropWhile (· != '/')) = none

theorem isMain_of_splitPin {text main : String} {pin : Option String}
    (unmarked : '#' ∉ text.toList) (split : splitPin text = (main, pin)) : IsMain main := by
  unfold splitPin at split
  cases found : cutPin? (text.toList.dropWhile (· != '/')) with
  | none =>
      simp only [found, Prod.mk.injEq] at split
      obtain ⟨rfl, -⟩ := split
      exact ⟨unmarked, found⟩
  | some parts =>
      obtain ⟨before, after⟩ := parts
      obtain ⟨whole, clear⟩ := eq_append_of_cutPin? found
      simp only [found, Prod.mk.injEq] at split
      obtain ⟨rfl, -⟩ := split
      rw [IsMain, String.toList_ofList]
      constructor
      · intro marked
        apply unmarked
        rw [← List.takeWhile_append_dropWhile (p := (· != '/')) (l := text.toList), whole]
        rcases List.mem_append.mp marked with marked | marked
        · exact List.mem_append_left _ marked
        · exact List.mem_append_right _ (List.mem_append_left _ marked)
      · rw [List.dropWhile_append_of_pos (List.all_eq_true.mp List.all_takeWhile)]
        cases before with
        | nil => rfl
        | cons c before =>
            have stop : (c != '/') = false := by
              have first := List.head?_dropWhile_not (· != '/') text.toList
              rw [whole] at first
              simpa using first
            rw [List.dropWhile_cons, stop]
            exact clear

/-- The authority before the first slash and the text after it, of the text before the
pin. -/
theorem isMain_cut? {main authority rest : String} (plain : IsMain main)
    (cut : Text.cut? '/' main = some (authority, rest)) :
    ('/' ∉ authority.toList ∧ '#' ∉ authority.toList) ∧
      '#' ∉ rest.toList ∧ cutPin? ('/' :: rest.toList) = none := by
  obtain ⟨unmarked, unpinned⟩ := plain
  obtain ⟨whole, ends⟩ := Text.cut?_eq_some_iff.mp cut
  rw [whole, List.mem_append, List.mem_cons, not_or, not_or] at unmarked
  have through : ∀ c ∈ authority.toList, (c != '/') = true := by
    intro c member
    rw [bne_iff_ne]
    rintro rfl
    exact ends member
  rw [whole, List.dropWhile_append_of_pos through, List.dropWhile_cons_of_neg (by simp)]
    at unpinned
  exact ⟨⟨ends, unmarked.1⟩, unmarked.2.2, unpinned⟩

/-- What is known of a path before its segments are looked at: it begins with a slash,
and neither a fragment nor a pin begins in it. -/
def IsRooted (path : String) : Prop :=
  Text.beginsWith '/' path = true ∧ '#' ∉ path.toList ∧ cutPin? path.toList = none

theorem isRooted_of_cutLast? {rest path version : String}
    (unmarked : '#' ∉ rest.toList) (unpinned : cutPin? ('/' :: rest.toList) = none)
    (cut : Text.cutLast? '@' ("/" ++ rest) = some (path, version)) : IsRooted path := by
  have whole := (Text.cutLast?_eq_some_iff.mp cut).1
  rw [String.toList_append] at whole
  change '/' :: rest.toList = path.toList ++ '@' :: version.toList at whole
  rw [whole] at unpinned
  cases pathChars : path.toList with
  | nil =>
      rw [pathChars] at whole
      exact absurd whole (by simp)
  | cons first more =>
      rw [pathChars, List.cons_append, List.cons.injEq] at whole
      obtain ⟨rfl, restChars⟩ := whole
      refine ⟨by simp [Text.beginsWith, pathChars], ?_, cutPin?_eq_none_of_append unpinned⟩
      rw [restChars, List.mem_append, not_or] at unmarked
      rw [pathChars, List.mem_cons, not_or]
      exact ⟨by decide, unmarked.1⟩

theorem IsRooted.isPath {path : String} (rooted : IsRooted path)
    (plain : (UriPath.segments path).all isPlainSegment = true) : isPath path = true := by
  obtain ⟨begun, unmarked, unpinned⟩ := rooted
  simp [PackageUri.isPath, begun, plain, Text.has, unmarked, unpinned]

/-- The package with the given parts, `whole` being the text that messages show. -/
def ofParts (whole : String) (scheme : PackageScheme) (authority path version : String)
    (pin : Option Checksum) (ends : '/' ∉ authority.toList ∧ '#' ∉ authority.toList)
    (rooted : IsRooted path) : Except MalformedUri PackageUri :=
  if filled : authority = "" then .error (.emptyAuthority whole)
  else if path.length ≤ 1 then .error (.emptyPath whole)
  else if plain : (UriPath.segments path).all isPlainSegment = true then
    if version = "" then .error (.missingVersion whole)
    else
      match Version.parse version with
      | .error cause => .error (.badVersion version whole cause)
      | .ok version =>
          .ok {
            scheme, authority, path, version, pin
            authority_valid := by simp [isAuthority, Text.has, filled, ends]
            path_valid := rooted.isPath plain }
  else .error (.badPath path whole)

/-- The package that the text before the pin names. -/
def parseMain (whole : String) (scheme : PackageScheme) (main : String)
    (pin : Option Checksum) (plain : IsMain main) : Except MalformedUri PackageUri :=
  match cut : Text.cut? '/' main with
  | none => .error (.missingPath whole)
  | some (authority, rest) =>
      have parts := isMain_cut? plain cut
      match cutAt : Text.cutLast? '@' ("/" ++ rest) with
      | none => .error (.missingVersion whole)
      | some (path, version) =>
          ofParts whole scheme authority path version pin parts.1
            (isRooted_of_cutLast? parts.2.1 parts.2.2 cutAt)

/-- The package that a text names. -/
def parse (whole : String) : Except MalformedUri PackageUri :=
  match splitScheme? whole with
  | none => .error (.notAPackageScheme whole)
  | some (scheme, rest) =>
      if marked : Text.has '#' rest then .error (.unexpectedFragment whole)
      else
        have unmarked : '#' ∉ rest.toList := by simpa [Text.has] using marked
        match split : splitPin rest with
        | (main, none) => parseMain whole scheme main none (isMain_of_splitPin unmarked split)
        | (main, some pin) =>
            match Checksum.parse pin with
            | .error cause => .error cause
            | .ok pin =>
                parseMain whole scheme main (some pin) (isMain_of_splitPin unmarked split)

/-! ## Names derived from a package -/

/-- The host of a package. -/
def host (package : PackageUri) : String :=
  match Text.cutLast? ':' package.authority with
  | some (host, digits) => if Text.isDigits digits then host else package.authority
  | none => package.authority

/-- The number after the host of a package; a plus sign before it is passed over. -/
def hostPort? (package : PackageUri) : Option Nat :=
  (Text.cutLast? ':' package.authority).bind fun parts =>
    Uri.portNumber? ((Text.dropStart? "+" parts.2).getD parts.2)

/-- The last segment of the path of a package. -/
def name (package : PackageUri) : String :=
  Text.lastField '/' package.path

/-- The address of the metadata document of a package. -/
def metadataUrl (package : PackageUri) : String :=
  "https://" ++ package.authority ++ package.versionedPath

/-- The package without its pin. -/
def unpinned (package : PackageUri) : PackageUri :=
  { package with pin := none }

/-- The place that the package competes for in a project. -/
def key (package : PackageUri) : PackageKey :=
  { authority := package.authority
    path := package.path
    major := package.version.major
    authority_valid := package.authority_valid
    path_valid := package.path_valid }

/-- The same package, to be found through a project. -/
def toProjectPackage (package : PackageUri) : PackageUri :=
  { package with scheme := .projectPackage }

/-- The same package, to be found at its server. -/
def toPackage (package : PackageUri) : PackageUri :=
  { package with scheme := .package }

/-- The package as a resource identifier, without its pin. -/
def toUri (package : PackageUri) : Uri :=
  { scheme := some package.scheme.text
    authority := some package.authority
    path := package.versionedPath
    query := none
    fragment := none }

/-- The directory that holds the package below a cache directory. -/
def cachePath (package : PackageUri) (cache : Path) : Path :=
  let segments := UriPath.segments package.path
  let last := segments.getLastD "" ++ "@" ++ package.version.text
  (segments.dropLast ++ [last]).foldl (fun path segment => path.join ⟨segment⟩)
    ((cache.join ⟨"package-1"⟩).join ⟨package.authority⟩)

/-- The file that holds the metadata document of the package, beside its
directory. -/
def metadataCachePath (package : PackageUri) (cache : Path) : Path :=
  (package.cachePath cache).withFileName s!"{package.name}@{package.version.text}.json"

end PackageUri

end PackageResolution

import PackageResolution.Version.Basic

/-!
# The order of versions

Versions are ordered by their numbers first.  A version with a pre-release part
comes before the release itself, and two pre-release parts are compared
identifier by identifier: numbers as numbers and before all other identifiers,
those by their characters.  Build metadata decides last, so the order is total
and only equal versions compare as equal.
-/

namespace PackageResolution.Version

/-- The order of two lists of identifiers: the first difference decides, and a
list comes after its own beginnings. -/
def compareAlong (compareOne : String → String → Ordering) :
    List String → List String → Ordering
  | [], [] => .eq
  | [], _ :: _ => .lt
  | _ :: _, [] => .gt
  | a :: as, b :: bs => (compareOne a b).then (compareAlong compareOne as bs)

/-- The order of two identifiers, given the order of those that are numbers. -/
def compareSegments (compareNumbers : String → String → Ordering) (a b : String) :
    Ordering :=
  match Text.isDigits a, Text.isDigits b with
  | false, true => .gt
  | true, false => .lt
  | false, false => compare a b
  | true, true => compareNumbers a b

/-- The order of two numbers without leading zeros. -/
def compareNumerals (a b : String) : Ordering :=
  (compare a.length b.length).then (compare a b)

/-- The order of two numbers with leading zeros: by value, then by the count of
zeros. -/
def comparePadded (a b : String) : Ordering :=
  (compareNumerals (Text.trimStart '0' a) (Text.trimStart '0' b)).then
    (compare a.length b.length)

/-- The order of two pre-release parts; the absent part is the greatest. -/
def comparePreRelease (a b : String) : Ordering :=
  if a = "" then if b = "" then .eq else .gt
  else if b = "" then .lt
  else compareAlong (compareSegments compareNumerals) (Text.fields '.' a) (Text.fields '.' b)

/-- The order of two build parts; the absent part is the least. -/
def compareBuild (a b : String) : Ordering :=
  compareAlong (compareSegments comparePadded) (Text.fields '.' a) (Text.fields '.' b)

/-- The order of two versions. -/
protected def compare (a b : Version) : Ordering :=
  (compare a.major b.major).then <|
  (compare a.minor b.minor).then <|
  (compare a.patch b.patch).then <|
  (comparePreRelease a.preRelease b.preRelease).then <|
  compareBuild a.build b.build

instance : Ord Version := ⟨Version.compare⟩

/-- Whether `a` is `b` or a later version. -/
def atLeast (a b : Version) : Bool :=
  a.compare b != .lt

end PackageResolution.Version

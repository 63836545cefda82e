import PackageResolution.Error
import PackageResolution.Uri.Basic

/-!
# Reading identifiers

The fragment is cut off at the first `#`, then the query at the first `?`, then
the scheme at the first `:`, and last the authority between two slashes and the
next one.  A text with a colon that does not end a scheme is a reference only if
the colon cannot be mistaken: when a slash comes before it or a dot begins the
text.
-/

namespace PackageResolution.Uri

/-- Whether a text is a scheme: a letter, then letters, digits, `+`, `-` and `.`,
all of them ASCII. -/
def isScheme (text : String) : Bool :=
  match text.toList with
  | [] => false
  | first :: rest =>
      first.isAlpha && rest.all fun c => c.isAlphanum || c == '+' || c == '-' || c == '.'

/-- The text before the first `mark`, and the one after it if the mark occurs. -/
def beforeMark (mark : Char) (text : String) : String × Option String :=
  match Text.cut? mark text with
  | some (before, after) => (before, some after)
  | none => (text, none)

/-- The authority and the path of the text after the scheme. -/
def splitAuthority (text : String) : Option String × String :=
  match Text.dropStart? "//" text with
  | none => (none, text)
  | some after =>
      match Text.cut? '/' after with
      | some (authority, path) => (some authority, "/" ++ path)
      | none => (some after, "")

/-- Whether the text before a colon shows that the colon ends no scheme. -/
def disownsColon (before : String) : Bool :=
  Text.has '/' before || Text.beginsWith '.' before

/-- The scheme and the text after it.  `bare` says that neither query nor fragment
follows, and `whole` is the text that messages show. -/
def splitScheme (whole : String) (bare : Bool) (text : String) :
    Except MalformedUri (Option String × String) :=
  match Text.cut? ':' text with
  | none => .ok (none, text)
  | some (before, after) =>
      if isScheme before then
        if after = "" && bare then .error (.nothingAfterScheme whole)
        else .ok (some before, after)
      else if disownsColon before then .ok (none, text)
      else .error (.illegalScheme whole)

/-- Whether a character may not occur in an identifier. -/
def isIllegal (c : Char) : Bool :=
  Text.isBlank c || Text.isControl c

/-- The identifier that a text writes. -/
def parse (text : String) : Except MalformedUri Uri :=
  match text.toList.find? isIllegal with
  | some c => .error (.illegalCharacter c text)
  | none =>
      let (rest, fragment) := beforeMark '#' text
      let (rest, query) := beforeMark '?' rest
      match splitScheme text (query.isNone && fragment.isNone) rest with
      | .error cause => .error cause
      | .ok (scheme, rest) =>
          let (authority, path) := splitAuthority rest
          .ok { scheme, authority, path, query, fragment }

end PackageResolution.Uri

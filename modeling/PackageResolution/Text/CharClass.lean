/-!
# Blank and control characters

The two classes of characters that no identifier may contain.  Both are closed
lists of the character standard, so they are given by their ranges.
-/

namespace PackageResolution.Text

/-- Whether a character is white space: the six ASCII blanks, the next-line and
no-break characters, and the spaces and separators outside Latin-1. -/
def isBlank (c : Char) : Bool :=
  let n := c.toNat
  (0x09 ≤ n && n ≤ 0x0D) || n == 0x20 || n == 0x85 || n == 0xA0 || n == 0x1680 ||
    (0x2000 ≤ n && n ≤ 0x200A) || n == 0x2028 || n == 0x2029 || n == 0x202F ||
    n == 0x205F || n == 0x3000

/-- Whether a character is a control character: the first thirty-two, the delete
character and the thirty-two after it. -/
def isControl (c : Char) : Bool :=
  c.toNat < 0x20 || (0x7F ≤ c.toNat && c.toNat ≤ 0x9F)

/-- Whether a text is ASCII digits only; the empty text is. -/
def isDigits (text : String) : Bool :=
  text.toList.all Char.isDigit

/-- The text with its ASCII letters in lower case. -/
def lower (text : String) : String :=
  String.ofList (text.toList.map Char.toLower)

/-- Whether two texts differ at most in the case of ASCII letters. -/
def sameIgnoringCase (a b : String) : Bool :=
  lower a == lower b

end PackageResolution.Text

import PackageResolution.Text.Unprintable

/-!
# Quoted characters and texts in messages

A message shows a character between single quotes and a text between double
quotes.  Characters with a short escape have it, unprintable ones are written as
their code point in hexadecimal, and all others stand for themselves.
-/

namespace PackageResolution.Text

/-- A number in lower-case hexadecimal digits. -/
def hexadecimal (n : Nat) : String :=
  String.ofList (Nat.toDigits 16 n)

/-- A character inside quotes, where `quote` is the quote around it. -/
def escapedIn (quote : Char) (c : Char) : String :=
  if c = '\x00' then "\\0"
  else if c = '\t' then "\\t"
  else if c = '\r' then "\\r"
  else if c = '\n' then "\\n"
  else if c = '\\' then "\\\\"
  else if c = quote then String.ofList ['\\', quote]
  else if isUnprintable c then "\\u\x7b" ++ hexadecimal c.toNat ++ "\x7d"
  else String.singleton c

/-- A character between single quotes. -/
def quotedChar (c : Char) : String :=
  "'" ++ escapedIn '\'' c ++ "'"

/-- A text between double quotes. -/
def quotedText (text : String) : String :=
  "\"" ++ String.join (text.toList.map (escapedIn '"')) ++ "\""

end PackageResolution.Text

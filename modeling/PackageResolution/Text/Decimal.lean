/-!
# Decimal numbers in text
-/

namespace PackageResolution.Text

/-- The value of a list of decimal digits. -/
def valueOf (digits : List Char) : Nat :=
  digits.foldl (fun n d => n * 10 + (d.toNat - '0'.toNat)) 0

/-- The number that a text writes in decimal digits, of which there is at least
one. -/
def decimal? (text : String) : Option Nat :=
  let digits := text.toList
  if digits ≠ [] ∧ digits.all Char.isDigit then some (valueOf digits) else none

end PackageResolution.Text

/-!
# JSON documents

A document is kept as it is written, as far as a reader can tell: the members of
an object keep their order and repetitions, and a number keeps its digits.  A
string may stand for no text, when it contains a lone surrogate or bytes that are
no UTF-8.  Such strings, overlong numbers and deep nesting do no harm in a part
that nobody reads; `Json.isPlain` says that a part has none of them.
-/

namespace PackageResolution

/-- A number as it is written: its digits without the point, the power of ten that
they are to be multiplied with, and whether it has neither point nor exponent. -/
structure JsonNumber where
  /-- Whether a minus sign stands before the digits. -/
  isNegative : Bool
  /-- The digits, read as one number. -/
  digits : Nat
  /-- The power of ten of the last digit. -/
  exponent : Int
  /-- Whether the number has neither a point nor an exponent. -/
  isWhole : Bool
  deriving DecidableEq, Repr

namespace JsonNumber

/-- The number as a natural number; `-0` is none. -/
def toNat? (number : JsonNumber) : Option Nat :=
  if number.isWhole && !number.isNegative then some number.digits else none

/-- The least size that rounds to no finite number of double precision. -/
def overflowBound : Nat := Nat.pow 2 1024 - Nat.pow 2 970

/-- Whether the number rounds to a finite number of double precision. -/
def isFinite (number : JsonNumber) : Bool :=
  if number.digits = 0 then true
  else
    match number.exponent with
    | .ofNat e => e ≤ 308 && number.digits * Nat.pow 10 e < overflowBound
    | .negSucc e =>
        number.digits < overflowBound || (Nat.toDigits 10 number.digits).length ≤ e + 308

end JsonNumber

/-- A JSON document. -/
inductive Json
  | null
  | bool (value : Bool)
  | number (value : JsonNumber)
  /-- A string and the text that it stands for, if it stands for one. -/
  | string (text : Option String)
  | array (items : List Json)
  | object (members : List (Option String × Json))
  deriving Repr

namespace Json

/-- The document that is a text. -/
def ofText (text : String) : Json := .string (some text)

/-- The document that is a natural number. -/
def ofNat (n : Nat) : Json :=
  .number { isNegative := false, digits := n, exponent := 0, isWhole := true }

/-- The object with the given members. -/
def ofMembers (members : List (String × Json)) : Json :=
  .object (members.map fun member => (some member.1, member.2))

/-- How many arrays and objects may contain each other in a part that is read,
plus one. -/
def depthLimit : Nat := 128

mutual

/-- Whether a part can be read as a whole with `depth` levels left: its strings are
texts, its numbers are finite and it is not nested too deeply. -/
def isPlain (depth : Nat) : Json → Bool
  | .null => true
  | .bool _ => true
  | .number value => value.isFinite
  | .string text => text.isSome
  | .array items => 1 < depth && itemsPlain (depth - 1) items
  | .object members => 1 < depth && membersPlain (depth - 1) members

/-- Whether all items of an array can be read. -/
def itemsPlain (depth : Nat) : List Json → Bool
  | [] => true
  | item :: rest => isPlain depth item && itemsPlain depth rest

/-- Whether all members of an object can be read. -/
def membersPlain (depth : Nat) : List (Option String × Json) → Bool
  | [] => true
  | (name, value) :: rest =>
      name.isSome && isPlain depth value && membersPlain depth rest

end

end Json

end PackageResolution

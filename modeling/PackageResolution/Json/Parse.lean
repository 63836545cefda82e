import PackageResolution.Json.Basic
import PackageResolution.Text.Decimal
import PackageResolution.Text.Utf8

/-!
# Reading JSON

The input is a list of characters in which a broken piece of UTF-8 stands as
`none`.  Such a piece may occur inside a string, which then stands for no text,
and nowhere else.  The grammar is that of the standard: no comments, no commas
before a closing bracket, no leading zeros, and four kinds of blanks.
-/

namespace PackageResolution.Json

/-- What is left of the input; a broken piece of UTF-8 is `none`. -/
abbrev Input := List (Option Char)

/-- The input that a text is. -/
def Input.ofText (text : String) : Input :=
  text.toList.map some

/-- The input that a document in bytes is. -/
def Input.ofBytes (bytes : ByteArray) : Input :=
  (Utf8.pieces bytes.data.toList).map fun
    | .char c => some c
    | .broken _ => none
    | .truncated _ => none

/-- Whether a character may stand between the parts of a document. -/
def isSpace : Option Char → Bool
  | some c => c = ' ' || c = '\n' || c = '\t' || c = '\r'
  | none => false

/-- The input after the blanks at its start. -/
def skipSpace (input : Input) : Input :=
  input.dropWhile isSpace

/-! ## Strings -/

/-- The value of a hexadecimal digit. -/
def hexValue? : Option Char → Option Nat
  | none => none
  | some c =>
      if '0' ≤ c ∧ c ≤ '9' then some (c.toNat - '0'.toNat)
      else if 'a' ≤ c ∧ c ≤ 'f' then some (c.toNat - 'a'.toNat + 10)
      else if 'A' ≤ c ∧ c ≤ 'F' then some (c.toNat - 'A'.toNat + 10)
      else none

/-- The value of four hexadecimal digits. -/
def codeUnit? (a b c d : Option Char) : Option Nat := do
  return ((← hexValue? a) * 16 + (← hexValue? b)) * 256 +
    (← hexValue? c) * 16 + (← hexValue? d)

/-- Whether a code unit is the first half of a pair. -/
def isHighSurrogate (unit : Nat) : Bool := 0xD800 ≤ unit && unit < 0xDC00

/-- Whether a code unit is the second half of a pair. -/
def isLowSurrogate (unit : Nat) : Bool := 0xDC00 ≤ unit && unit < 0xE000

/-- The character of a pair of code units. -/
def pairChar (high low : Nat) : Char :=
  Char.ofNat (0x10000 + (high - 0xD800) * 0x400 + (low - 0xDC00))

/-- The character of an escape of one letter. -/
def shortEscape? (c : Char) : Option Char :=
  if c = '"' ∨ c = '\\' ∨ c = '/' then some c
  else if c = 'b' then some '\x08'
  else if c = 'f' then some '\x0c'
  else if c = 'n' then some '\n'
  else if c = 'r' then some '\r'
  else if c = 't' then some '\t'
  else none

/-- A piece of a string as it is written. -/
inductive StringPiece
  /-- A character, written as itself or by a letter. -/
  | char (c : Char)
  /-- A code unit, written in hexadecimal. -/
  | unit (value : Nat)
  /-- Bytes that are no UTF-8. -/
  | stray
  deriving DecidableEq, Repr

/-- Pieces of a string with one more at their front. -/
def consPiece (piece : StringPiece) (parsed : List StringPiece × Input) :
    List StringPiece × Input :=
  (piece :: parsed.1, parsed.2)

/-- The pieces of a string up to its closing quote, and the input after it. -/
def stringPieces? : Input → Option (List StringPiece × Input)
  | [] => none
  | none :: rest => (stringPieces? rest).map (consPiece .stray)
  | some '"' :: rest => some ([], rest)
  | some '\\' :: some 'u' :: a :: b :: c :: d :: rest =>
      match codeUnit? a b c d with
      | none => none
      | some unit => (stringPieces? rest).map (consPiece (.unit unit))
  | some '\\' :: some c :: rest =>
      match shortEscape? c with
      | none => none
      | some c => (stringPieces? rest).map (consPiece (.char c))
  | some c :: rest =>
      if c.toNat < 0x20 ∨ c = '\\' then none
      else (stringPieces? rest).map (consPiece (.char c))

/-- The text that the pieces of a string stand for.  Two halves of a pair make one
character, and half a pair makes none. -/
def textOfPieces? : List StringPiece → Option (List Char)
  | [] => some []
  | .stray :: _ => none
  | .char c :: rest => (textOfPieces? rest).map (c :: ·)
  | .unit first :: .unit second :: rest =>
      if isHighSurrogate first then
        if isLowSurrogate second then
          (textOfPieces? rest).map (pairChar first second :: ·)
        else none
      else if isLowSurrogate first then none
      else (textOfPieces? (.unit second :: rest)).map (Char.ofNat first :: ·)
  | .unit unit :: rest =>
      if isHighSurrogate unit || isLowSurrogate unit then none
      else (textOfPieces? rest).map (Char.ofNat unit :: ·)

/-- A string after its opening quote, as a text if it stands for one. -/
def string? (input : Input) : Option (Option String × Input) :=
  (stringPieces? input).map fun parsed =>
    ((textOfPieces? parsed.1).map String.ofList, parsed.2)

/-! ## Numbers -/

/-- Whether the input begins with a decimal digit. -/
def isDigit : Option Char → Bool
  | some c => c.isDigit
  | none => false

/-- The digits at the start of the input, and the input after them. -/
def digitRun (input : Input) : List Char × Input :=
  ((input.takeWhile isDigit).filterMap id, input.dropWhile isDigit)

/-- The digits before the point: a zero alone, or digits that begin with none. -/
def wholeDigits? : Input → Option (List Char × Input)
  | some '0' :: rest => some (['0'], rest)
  | input =>
      let (digits, rest) := digitRun input
      if digits = [] then none else some (digits, rest)

/-- The digits after the point, if there is a point. -/
def fractionDigits? : Input → Option (List Char × Input)
  | some '.' :: rest =>
      let (digits, rest) := digitRun rest
      if digits = [] then none else some (digits, rest)
  | input => some ([], input)

/-- The exponent, if there is one. -/
def exponent? : Input → Option (Option Int × Input)
  | some e :: rest =>
      if e = 'e' ∨ e = 'E' then
        let (negative, rest) : Bool × Input :=
          match rest with
          | some '-' :: rest => (true, rest)
          | some '+' :: rest => (false, rest)
          | rest => (false, rest)
        let (digits, rest) := digitRun rest
        let size : Int := Text.valueOf digits
        if digits = [] then none else some (some (if negative then -size else size), rest)
      else some (none, some e :: rest)
  | input => some (none, input)

/-- A number after its sign. -/
def number? (isNegative : Bool) (input : Input) : Option (JsonNumber × Input) := do
  let (whole, rest) ← wholeDigits? input
  let (fraction, rest) ← fractionDigits? rest
  let (exponent, rest) ← exponent? rest
  return ({ isNegative
            digits := Text.valueOf (whole ++ fraction)
            exponent := exponent.getD 0 - fraction.length
            isWhole := fraction = [] ∧ exponent = none }, rest)

/-! ## Documents -/

/-- The input after a word that it begins with. -/
def word? (word : List Char) (input : Input) : Option Input :=
  if (word.map some).isPrefixOf input then some (input.drop word.length) else none

mutual

/-- A value at the start of the input, and the input after it.  The fuel bounds the
number of steps; the length of the input is enough. -/
def value? : Nat → Input → Option (Json × Input)
  | 0, _ => none
  | fuel + 1, input =>
      match skipSpace input with
      | some '"' :: rest => (string? rest).map fun parsed => (.string parsed.1, parsed.2)
      | some '[' :: rest =>
          match skipSpace rest with
          | some ']' :: rest => some (.array [], rest)
          | rest => (items? fuel rest).map fun parsed => (.array parsed.1, parsed.2)
      | some '{' :: rest =>
          match skipSpace rest with
          | some '}' :: rest => some (.object [], rest)
          | rest => (members? fuel rest).map fun parsed => (.object parsed.1, parsed.2)
      | some 'n' :: rest => (word? ['u', 'l', 'l'] rest).map fun rest => (.null, rest)
      | some 't' :: rest => (word? ['r', 'u', 'e'] rest).map fun rest => (.bool true, rest)
      | some 'f' :: rest =>
          (word? ['a', 'l', 's', 'e'] rest).map fun rest => (.bool false, rest)
      | some '-' :: rest => (number? true rest).map fun parsed => (.number parsed.1, parsed.2)
      | rest => (number? false rest).map fun parsed => (.number parsed.1, parsed.2)

/-- The items of an array from one of them on, and the input after the bracket. -/
def items? : Nat → Input → Option (List Json × Input)
  | 0, _ => none
  | fuel + 1, input =>
      match value? fuel input with
      | none => none
      | some (item, rest) =>
          match skipSpace rest with
          | some ']' :: rest => some ([item], rest)
          | some ',' :: rest =>
              (items? fuel rest).map fun parsed => (item :: parsed.1, parsed.2)
          | _ => none

/-- The members of an object from one of them on, and the input after the brace. -/
def members? : Nat → Input → Option (List (Option String × Json) × Input)
  | 0, _ => none
  | fuel + 1, input =>
      match skipSpace input with
      | some '"' :: rest =>
          match string? rest with
          | none => none
          | some (name, rest) =>
              match skipSpace rest with
              | some ':' :: rest =>
                  match value? fuel rest with
                  | none => none
                  | some (value, rest) =>
                      match skipSpace rest with
                      | some '}' :: rest => some ([(name, value)], rest)
                      | some ',' :: rest =>
                          (members? fuel rest).map fun parsed =>
                            ((name, value) :: parsed.1, parsed.2)
                      | _ => none
              | _ => none
      | _ => none

end

/-- The document that the whole input is. -/
def parse? (input : Input) : Option Json :=
  match value? (2 * input.length + 1) input with
  | none => none
  | some (value, rest) => if skipSpace rest = [] then some value else none

end PackageResolution.Json

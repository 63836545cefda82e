import PackageResolution.Json.Basic
import PackageResolution.Text.Cut

/-!
# Writing JSON

A document is written with one item or member on each line, two blanks deeper than
the bracket that opens them, and with nothing between the brackets of an empty
array or object.  Only quotes, backslashes and control characters are escaped.
-/

namespace PackageResolution.Json

/-- The hexadecimal digit of a value below sixteen. -/
def hexDigit (value : Nat) : Char :=
  if value < 10 then Char.ofNat (0x30 + value) else Char.ofNat (0x61 + (value - 10))

/-- A character inside a string. -/
def escaped (c : Char) : List Char :=
  if c = '"' then ['\\', '"']
  else if c = '\\' then ['\\', '\\']
  else if c = '\x08' then ['\\', 'b']
  else if c = '\x0c' then ['\\', 'f']
  else if c = '\n' then ['\\', 'n']
  else if c = '\r' then ['\\', 'r']
  else if c = '\t' then ['\\', 't']
  else if c.toNat < 0x20 then
    ['\\', 'u', '0', '0', hexDigit (c.toNat / 16), hexDigit (c.toNat % 16)]
  else [c]

/-- A string with its quotes. -/
def quoted (text : String) : String :=
  "\"" ++ String.ofList (text.toList.flatMap escaped) ++ "\""

/-- The blanks at the start of a line. -/
def indentation (depth : Nat) : String :=
  String.ofList (List.replicate (2 * depth) ' ')

/-- A number; one that is no whole number has an exponent. -/
def numeral (number : JsonNumber) : String :=
  let sign := if number.isNegative then "-" else ""
  let exponent := if number.isWhole then "" else s!"e{number.exponent}"
  sign ++ toString number.digits ++ exponent

/-- Lines between brackets that stand at `depth`, or the brackets alone. -/
def bracketed (opening closing : String) (depth : Nat) : List String → String
  | [] => opening ++ closing
  | lines =>
      opening ++ "\n" ++ ",\n".intercalate (lines.map (indentation (depth + 1) ++ ·)) ++
        "\n" ++ indentation depth ++ closing

mutual

/-- A document whose first line is already indented by `depth` levels. -/
def render (depth : Nat) : Json → String
  | .null => "null"
  | .bool true => "true"
  | .bool false => "false"
  | .number value => numeral value
  | .string text => quoted (text.getD "")
  | .array items => bracketed "[" "]" depth (renderItems (depth + 1) items)
  | .object members =>
      bracketed "\x7b" "\x7d" depth (renderMembers (depth + 1) members)

/-- The items of an array. -/
def renderItems (depth : Nat) : List Json → List String
  | [] => []
  | item :: rest => render depth item :: renderItems depth rest

/-- The members of an object. -/
def renderMembers (depth : Nat) : List (Option String × Json) → List String
  | [] => []
  | (name, value) :: rest =>
      (quoted (name.getD "") ++ ": " ++ render depth value) :: renderMembers depth rest

end

/-- The written form of a document. -/
def text (json : Json) : String :=
  render 0 json

end PackageResolution.Json

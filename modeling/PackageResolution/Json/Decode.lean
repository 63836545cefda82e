import PackageResolution.Association
import PackageResolution.Json.Parse

/-!
# Values in JSON documents

A decoder turns a part of a document into a value, or says what is wrong with it.
It is given the number of levels of nesting that are left.  Members that a record
does not have are passed over unread, whatever is in them.  A record may also be
written as the array of its fields in order.
-/

namespace PackageResolution.Json

/-- How a part of a document is turned into a value. -/
abbrev Decoder (α : Type) := Nat → Json → Except String α

namespace Decoder

/-- A text. -/
def text : Decoder String
  | _, .string (some text) => .ok text
  | _, .string none => .error "a string is not valid Unicode"
  | _, _ => .error "expected a string"

/-- A truth value. -/
def bool : Decoder Bool
  | _, .bool value => .ok value
  | _, _ => .error "expected a boolean"

/-- A natural number below `bound`. -/
def natBelow (bound : Nat) : Decoder Nat
  | _, .number value =>
      match value.toNat? with
      | some n => if n < bound then .ok n else .error "a number is too large"
      | none => .error "expected a natural number"
  | _, _ => .error "expected a number"

/-- A value that may be `null`. -/
def nullable {α : Type} (decoder : Decoder α) : Decoder (Option α)
  | _, .null => .ok none
  | depth, json => (decoder depth json).map some

/-- The levels left inside an array or object. -/
def deeper (depth : Nat) : Except String Nat :=
  if depth ≤ 1 then .error "recursion limit exceeded" else .ok (depth - 1)

/-- An array of values. -/
def list {α : Type} (decoder : Decoder α) : Decoder (List α)
  | depth, .array items => do
      let depth ← deeper depth
      items.mapM (decoder depth)
  | _, _ => .error "expected an array"

/-- An object of values by name.  A repeated name keeps its first place and its
last value. -/
def map {α : Type} (decoder : Decoder α) : Decoder (List (String × α))
  | depth, .object members => do
      let depth ← deeper depth
      members.foldlM (fun values member => do
        let name ← text depth (.string member.1)
        return Association.set name (← decoder depth member.2) values) []
  | _, _ => .error "expected an object"

/-- A value that is first read as a whole, so that nothing in it is passed over. -/
def whole {α : Type} (decoder : Decoder α) : Decoder α
  | depth, json =>
      if json.isPlain depth then decoder depth json
      else .error "a value cannot be read as a whole"

/-! ## Records -/

/-- The fields of a record that a document gives, with the levels left inside. -/
structure Fields where
  /-- The levels of nesting left for a field. -/
  depth : Nat
  /-- The given fields by name. -/
  given : List (String × Json)

/-- The members of an object that belong to a record; each may occur once. -/
def ownMembers (names : List String) :
    List (Option String × Json) → Except String (List (String × Json))
  | [] => .ok []
  | (none, _) :: _ => .error "a string is not valid Unicode"
  | (some name, value) :: rest => do
      let others ← ownMembers names rest
      if name ∈ names then
        if others.any (·.1 == name) then .error "duplicate field"
        else return (name, value) :: others
      else return others

/-- The fields of a record that is written as an object. -/
def namedFields (names : List String) : Decoder Fields
  | depth, .object members => do
      let depth ← deeper depth
      return { depth, given := ← ownMembers names members }
  | _, _ => .error "expected an object"

/-- The fields of a record that is written as an object or as the array of its
fields. -/
def fields (names : List String) : Decoder Fields
  | depth, .array items => do
      let depth ← deeper depth
      if names.length < items.length then .error "too many fields"
      else return { depth, given := names.zip items }
  | depth, json => namedFields names depth json

/-- A field that must be given. -/
def Fields.required {α : Type} (fields : Fields) (name : String) (decoder : Decoder α) :
    Except String α :=
  match fields.given.lookup name with
  | some json => decoder fields.depth json
  | none => .error s!"missing field {name}"

/-- A field with a value for when it is not given. -/
def Fields.optional {α : Type} (fields : Fields) (name : String) (decoder : Decoder α)
    (default : α) : Except String α :=
  match fields.given.lookup name with
  | some json => decoder fields.depth json
  | none => .ok default

/-- The value that a document holds. -/
def run {α : Type} (decoder : Decoder α) (input : Input) : Except String α :=
  match parse? input with
  | some json => decoder depthLimit json
  | none => .error "not a JSON document"

end Decoder

end PackageResolution.Json

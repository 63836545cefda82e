/-!
# Reading bytes as UTF-8

A sequence of bytes is cut into characters and broken pieces.  A broken piece is
the longest start of a character that the bytes allow, so every later character
is still found.  All readers of bytes share this one cut: the strict reader
accepts it when no piece is broken and otherwise names the first broken piece,
the lenient one puts the replacement character in place of each.
-/

namespace PackageResolution.Utf8

/-- A character, or a piece of bytes that is none. -/
inductive Piece
  /-- A complete character. -/
  | char (c : Char)
  /-- `length` bytes that no continuation turns into a character. -/
  | broken (length : Nat)
  /-- `length` bytes that start a character where the input ends. -/
  | truncated (length : Nat)
  deriving DecidableEq, Repr

/-- Whether a byte continues a character. -/
def isContinuation (b : UInt8) : Bool :=
  0x80 ≤ b && b ≤ 0xBF

/-- Whether `second` may follow `first` in a character of three bytes: the
overlong forms and the surrogates are left out. -/
def isSecondOfThree (first second : UInt8) : Bool :=
  if first = 0xE0 then 0xA0 ≤ second && second ≤ 0xBF
  else if first = 0xED then 0x80 ≤ second && second ≤ 0x9F
  else isContinuation second

/-- Whether `second` may follow `first` in a character of four bytes: the
overlong forms and the numbers beyond the last code point are left out. -/
def isSecondOfFour (first second : UInt8) : Bool :=
  if first = 0xF0 then 0x90 ≤ second && second ≤ 0xBF
  else if first = 0xF4 then 0x80 ≤ second && second ≤ 0x8F
  else isContinuation second

/-- The character of a leading part and the low six bits of the bytes after it. -/
def assemble (lead : Nat) (continuations : List UInt8) : Char :=
  Char.ofNat (continuations.foldl (fun n b => n * 64 + b.toNat % 64) lead)

/-- The characters and broken pieces of a sequence of bytes, in order. -/
def pieces : List UInt8 → List Piece
  | [] => []
  | a :: rest =>
      if a < 0x80 then .char (assemble a.toNat []) :: pieces rest
      else if 0xC2 ≤ a && a ≤ 0xDF then
        match rest with
        | [] => [.truncated 1]
        | b :: after =>
            if isContinuation b then
              .char (assemble (a.toNat % 32) [b]) :: pieces after
            else .broken 1 :: pieces (b :: after)
      else if 0xE0 ≤ a && a ≤ 0xEF then
        match rest with
        | [] => [.truncated 1]
        | b :: after =>
            if isSecondOfThree a b then
              match after with
              | [] => [.truncated 2]
              | c :: more =>
                  if isContinuation c then
                    .char (assemble (a.toNat % 16) [b, c]) :: pieces more
                  else .broken 2 :: pieces (c :: more)
            else .broken 1 :: pieces (b :: after)
      else if 0xF0 ≤ a && a ≤ 0xF4 then
        match rest with
        | [] => [.truncated 1]
        | b :: after =>
            if isSecondOfFour a b then
              match after with
              | [] => [.truncated 2]
              | c :: more =>
                  if isContinuation c then
                    match more with
                    | [] => [.truncated 3]
                    | d :: last =>
                        if isContinuation d then
                          .char (assemble (a.toNat % 8) [b, c, d]) :: pieces last
                        else .broken 3 :: pieces (d :: last)
                  else .broken 2 :: pieces (c :: more)
            else .broken 1 :: pieces (b :: after)
      else .broken 1 :: pieces rest
termination_by bytes => bytes.length

/-- The bytes of a text. -/
def encode (text : String) : List UInt8 :=
  text.toList.flatMap String.utf8EncodeChar

/-- Why a sequence of bytes is no text. -/
inductive DecodeError
  /-- A piece of `length` bytes at `index` is no character. -/
  | invalid (length index : Nat)
  /-- The input ends inside the character that starts at `index`. -/
  | incomplete (index : Nat)
  deriving DecidableEq, Repr

/-- The wording of a decoding error. -/
def DecodeError.message : DecodeError → String
  | .invalid length index =>
      s!"invalid utf-8 sequence of {length} bytes from index {index}"
  | .incomplete index => s!"incomplete utf-8 byte sequence from index {index}"

/-- The characters of a list of pieces that starts at `index`, or the first
piece that is none. -/
def characters (index : Nat) : List Piece → Except DecodeError (List Char)
  | [] => .ok []
  | .char c :: rest => (characters (index + c.utf8Size) rest).map (c :: ·)
  | .broken length :: _ => .error (.invalid length index)
  | .truncated _ :: _ => .error (.incomplete index)

/-- The text that the bytes encode. -/
def decode (bytes : List UInt8) : Except DecodeError String :=
  (characters 0 (pieces bytes)).map String.ofList

/-- The text that the bytes encode, with a replacement character for each broken
piece. -/
def decodeLossy (bytes : List UInt8) : String :=
  String.ofList <| (pieces bytes).map fun
    | .char c => c
    | .broken _ => '\uFFFD'
    | .truncated _ => '\uFFFD'

end PackageResolution.Utf8

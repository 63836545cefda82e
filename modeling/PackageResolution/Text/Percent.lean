import PackageResolution.Text.Utf8

/-!
# Percent-encoding

A percent sign and two hexadecimal digits stand for a byte.  Decoding leaves a
percent sign that no two digits follow as it is, so every text can be decoded.
-/

namespace PackageResolution.Percent

/-- The value of a hexadecimal digit in ASCII, of either case. -/
def digitValue? (b : UInt8) : Option Nat :=
  if 0x30 ≤ b && b ≤ 0x39 then some (b.toNat - 0x30)
  else if 0x41 ≤ b && b ≤ 0x46 then some (b.toNat - 0x41 + 10)
  else if 0x61 ≤ b && b ≤ 0x66 then some (b.toNat - 0x61 + 10)
  else none

/-- The hexadecimal digit of a value below sixteen, in upper case. -/
def digit (value : Nat) : Char :=
  if value < 10 then Char.ofNat (0x30 + value) else Char.ofNat (0x41 + (value - 10))

/-- The bytes with every escape replaced by the byte that it stands for. -/
def decodeBytes : List UInt8 → List UInt8
  | [] => []
  | 0x25 :: high :: low :: rest =>
      match digitValue? high, digitValue? low with
      | some h, some l => UInt8.ofNat (h * 16 + l) :: decodeBytes rest
      | _, _ => 0x25 :: decodeBytes (high :: low :: rest)
  | b :: rest => b :: decodeBytes rest

/-- The escape of a byte. -/
def escape (b : UInt8) : List Char :=
  ['%', digit (b.toNat / 16), digit (b.toNat % 16)]

/-- The text with the bytes of its characters written out, those that `escaped`
holds of as escapes.  Bytes outside ASCII are always escaped. -/
def encodeWhere (escaped : UInt8 → Bool) (text : String) : String :=
  String.ofList <| (Utf8.encode text).flatMap fun b =>
    if escaped b || 0x80 ≤ b then escape b else [Char.ofNat b.toNat]

/-- The text with its escapes decoded, if the result is UTF-8. -/
def decode (text : String) : Except Utf8.DecodeError String :=
  Utf8.decode (decodeBytes (Utf8.encode text))

/-- The text with its escapes decoded and broken characters replaced. -/
def decodeLossy (text : String) : String :=
  Utf8.decodeLossy (decodeBytes (Utf8.encode text))

end PackageResolution.Percent

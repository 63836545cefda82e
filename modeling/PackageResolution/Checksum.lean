import PackageResolution.Checksum.Sha256
import PackageResolution.Error
import PackageResolution.Text.Cut

/-!
# Checksums

A checksum is the SHA-256 digest of a document, written in hexadecimal.  It is
kept as it was written, since messages show it so; whether two checksums match
does not depend on the case of their letters.
-/

namespace PackageResolution

/-- A checksum as it is written. -/
structure Checksum where
  /-- The digest in hexadecimal. -/
  sha256 : String
  deriving DecidableEq, Repr

namespace Checksum

/-- The written form of a checksum inside an identifier. -/
def text (checksum : Checksum) : String :=
  "sha256:" ++ checksum.sha256

instance : ToString Checksum := ⟨text⟩

/-- The checksum that a text writes.  Its digits are not looked at: a checksum
that is no digest matches no document. -/
def parse (text : String) : Except MalformedUri Checksum :=
  match Text.dropStart? "sha256:" text with
  | some digits => if digits = "" then .error (.badChecksum text) else .ok ⟨digits⟩
  | none => .error (.badChecksum text)

/-- The hexadecimal digit of a value below sixteen, in lower case. -/
def hexDigit (value : Nat) : Char :=
  if value < 10 then Char.ofNat (0x30 + value) else Char.ofNat (0x61 + (value - 10))

/-- Bytes in hexadecimal, two digits each. -/
def hexadecimal (bytes : List UInt8) : String :=
  String.ofList (bytes.flatMap fun b => [hexDigit (b.toNat / 16), hexDigit (b.toNat % 16)])

/-- The checksum of a document. -/
def ofDocument (document : ByteArray) : Checksum :=
  ⟨hexadecimal (Sha256.digest document)⟩

/-- Whether two checksums are of the same digest. -/
def agrees (a b : Checksum) : Bool :=
  Text.sameIgnoringCase a.sha256 b.sha256

end Checksum

end PackageResolution

import PackageResolution.Text.Cut

/-!
# Certificates in text files

A certificate file is a text with blocks between marked lines.  The first block that
is a certificate counts: its lines are base64, and the bytes they stand for are nested
records, each with a tag, a length and its contents.  Only the outline is looked at,
which tells a certificate from anything else; the server's own certificate is checked
by whoever makes the connection.
-/

namespace PackageResolution.Certificate

/-! ## Blocks of text -/

/-- The lines of a file, without blanks at their ends. -/
def lines (bytes : List UInt8) : List (List Char) :=
  ((bytes.map fun b => Char.ofNat b.toNat).splitOn '\n').map fun line =>
    (line.reverse.dropWhile fun c => c.toNat ≤ 0x20).reverse

/-- The line that begins or ends the block of a certificate. -/
def markLine (word label : String) : List Char :=
  ("-----" ++ word ++ " " ++ label ++ "-----").toList

/-- The labels of blocks that hold a certificate. -/
def labels : List String :=
  ["CERTIFICATE", "X509 CERTIFICATE", "TRUSTED CERTIFICATE"]

/-- The characters between the marks of the first certificate. -/
def body? : List (List Char) → Option (List Char)
  | [] => none
  | line :: rest =>
      match labels.find? fun label => line = markLine "BEGIN" label with
      | none => body? rest
      | some label =>
          let inner := rest.takeWhile (· ≠ markLine "END" label)
          if inner.length < rest.length then some inner.flatten else none

/-! ## Base64 -/

/-- The value of a digit in base64. -/
def digit? (c : Char) : Option Nat :=
  if c.isUpper then some (c.toNat - 'A'.toNat)
  else if c.isLower then some (c.toNat - 'a'.toNat + 26)
  else if c.isDigit then some (c.toNat - '0'.toNat + 52)
  else if c = '+' then some 62
  else if c = '/' then some 63
  else none

/-- The three bytes of a number below `2 ^ 24`. -/
def threeBytes (n : Nat) : List UInt8 :=
  [UInt8.ofNat (n / 65536), UInt8.ofNat (n / 256), UInt8.ofNat n]

/-- The bytes that digits stand for, four digits for three bytes; the last four can
end with signs for absent bytes. -/
def base64? : List Char → Option (List UInt8)
  | [] => some []
  | [a, b, '=', '='] => do
      return (threeBytes ((← digit? a) * 262144 + (← digit? b) * 4096)).take 1
  | [a, b, c, '='] => do
      return (threeBytes ((← digit? a) * 262144 + (← digit? b) * 4096 +
        (← digit? c) * 64)).take 2
  | a :: b :: c :: d :: rest => do
      let n := (← digit? a) * 262144 + (← digit? b) * 4096 + (← digit? c) * 64 + (← digit? d)
      return threeBytes n ++ (← base64? rest)
  | _ => none

/-! ## Nested records -/

/-- The number of some bytes, highest first. -/
def valueOf (bytes : List UInt8) : Nat :=
  bytes.foldl (fun n b => n * 256 + b.toNat) 0

/-- The length of a record, and the bytes after it. -/
def length? : List UInt8 → Option (Nat × List UInt8)
  | [] => none
  | first :: rest =>
      if first < 0x80 then some (first.toNat, rest)
      else
        let count := first.toNat - 0x80
        if count = 0 ∨ 4 < count ∨ rest.length < count then none
        else some (valueOf (rest.take count), rest.drop count)

/-- The tag and the contents of the first record, and the bytes after it. -/
def record? : List UInt8 → Option ((UInt8 × List UInt8) × List UInt8)
  | [] => none
  | tag :: rest =>
      match length? rest with
      | none => none
      | some (length, rest) =>
          if rest.length < length then none
          else some ((tag, rest.take length), rest.drop length)

/-- Whether the bytes are records with the given tags and nothing else. -/
def haveTags : List UInt8 → List UInt8 → Bool
  | [], bytes => bytes.isEmpty
  | tag :: tags, bytes =>
      match record? bytes with
      | some ((found, _), rest) => found = tag && haveTags tags rest
      | none => false

/-- The tag of a whole number. -/
def integerTag : UInt8 := 0x02

/-- The tag of a string of bits. -/
def bitsTag : UInt8 := 0x03

/-- The tag of a sequence of records. -/
def sequenceTag : UInt8 := 0x30

/-- The tag of the version of a certificate. -/
def versionTag : UInt8 := 0xA0

/-- The records that a certificate certifies, after the version: serial number,
algorithm, issuer, validity, subject and key. -/
def certifiedTags : List UInt8 :=
  integerTag :: List.replicate 5 sequenceTag

/-- Whether the bytes begin with the records that a certificate certifies; optional
ones can follow. -/
def isCertified (bytes : List UInt8) : Bool :=
  let bytes :=
    match record? bytes with
    | some ((tag, _), rest) => if tag = versionTag then rest else bytes
    | none => bytes
  go certifiedTags bytes
where
  /-- Whether the bytes begin with records of the given tags. -/
  go : List UInt8 → List UInt8 → Bool
    | [], _ => true
    | tag :: tags, bytes =>
        match record? bytes with
        | some ((found, _), rest) => found = tag && go tags rest
        | none => false

/-- Whether bytes have the outline of a certificate: what is certified, the algorithm
and the signature. -/
def hasOutline (bytes : List UInt8) : Bool :=
  match record? bytes with
  | some ((tag, contents), _) =>
      tag = sequenceTag && haveTags [sequenceTag, sequenceTag, bitsTag] contents &&
        (record? contents).any fun parsed => isCertified parsed.1.2
  | none => false

/-- Whether a file holds a certificate. -/
def isCertificateFile (file : ByteArray) : Bool :=
  match (body? (lines file.data.toList)).bind base64? with
  | some bytes => hasOutline bytes
  | none => false

end PackageResolution.Certificate

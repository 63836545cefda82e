import PackageResolution.Association
import PackageResolution.Archive.CodePage437
import PackageResolution.Archive.Crc32
import PackageResolution.Archive.Entry
import PackageResolution.Archive.Inflate
import PackageResolution.Text.Utf8

/-!
# Reading zip archives

A zip archive ends with a record that says where its directory is.  The directory
names the entries and says where each begins; a header of its own stands before the
contents of an entry.  Bytes can stand before the archive, which moves everything
behind them, and after it.  The record is therefore looked for from the end, and a
record whose directory cannot be read counts as chance bytes.

Two extensions of the format are not read: the records for archives with more entries or
bytes than the numbers of two and four bytes can tell (zip64), and the extra field 0x7075,
which repeats the name of an entry in UTF-8.
-/

namespace PackageResolution.Zip

/-- The number of `count` bytes at `offset`, lowest byte first. -/
def number? (bytes : ByteArray) (offset : Nat) : Nat → Option Nat
  | 0 => some 0
  | count + 1 => do
      let byte ← bytes.data[offset]?
      return byte.toNat + 256 * (← number? bytes (offset + 1) count)

/-- The number of two bytes at `offset`. -/
def short? (bytes : ByteArray) (offset : Nat) : Option Nat :=
  number? bytes offset 2

/-- The number of four bytes at `offset`. -/
def long? (bytes : ByteArray) (offset : Nat) : Option Nat :=
  number? bytes offset 4

/-- The `length` bytes at `offset`, if there are so many. -/
def piece? (bytes : ByteArray) (offset length : Nat) : Option (List UInt8) :=
  if offset + length ≤ bytes.size then
    some (bytes.data.extract offset (offset + length)).toList
  else none

/-- The mark before the header of an entry. -/
def entryMark : Nat := 0x04034B50

/-- The mark before a line of the directory. -/
def directoryMark : Nat := 0x02014B50

/-- The mark before the record at the end. -/
def endMark : Nat := 0x06054B50

/-- Whether `mark` stands at `offset`. -/
def hasMark (bytes : ByteArray) (mark offset : Nat) : Bool :=
  long? bytes offset = some mark

/-! ## The end record -/

/-- The record at the end of an archive. -/
structure EndRecord where
  /-- Where the record begins. -/
  position : Nat
  /-- The number of this part of an archive in parts. -/
  part : Nat
  /-- The number of the part with the directory. -/
  directoryPart : Nat
  /-- The number of entries that this part lists. -/
  entriesHere : Nat
  /-- The number of entries of the whole archive. -/
  entries : Nat
  /-- Where the directory begins, counted from the start of the archive. -/
  directoryOffset : Nat
  deriving DecidableEq, Repr

/-- The size of an end record without its comment. -/
def EndRecord.size : Nat := 22

/-- The end record at `position`, if there is one and its comment ends before the
bytes do. -/
def EndRecord.at? (bytes : ByteArray) (position : Nat) : Option EndRecord := do
  guard (hasMark bytes endMark position)
  let comment ← short? bytes (position + 20)
  guard (position + EndRecord.size + comment ≤ bytes.size)
  return {
    position
    part := ← short? bytes (position + 4)
    directoryPart := ← short? bytes (position + 6)
    entriesHere := ← short? bytes (position + 8)
    entries := ← short? bytes (position + 10)
    directoryOffset := ← long? bytes (position + 16) }

/-- The first place from `offset` on, of `count` places, where a line of a directory
begins. -/
def directoryFrom? (bytes : ByteArray) (offset : Nat) : Nat → Option Nat
  | 0 => none
  | count + 1 =>
      if hasMark bytes directoryMark offset then some offset
      else directoryFrom? bytes (offset + 1) count

/-- How many bytes stand before the archive: an empty archive ends where its
directory does, and any other has a line of its directory where it begins. -/
def EndRecord.shift? (record : EndRecord) (bytes : ByteArray) : Option Nat :=
  if record.entries = 0 then some (record.position - record.directoryOffset)
  else
    (directoryFrom? bytes record.directoryOffset
      (record.position - 3 - record.directoryOffset)).map (· - record.directoryOffset)

/-! ## The directory -/

/-- A line of the directory. -/
structure Line where
  /-- The name of the entry. -/
  name : String
  /-- The marks of the entry, one bit each. -/
  flags : Nat
  /-- The number of the method by which the contents are packed. -/
  method : Nat
  /-- The check of the contents. -/
  check : Nat
  /-- The size of the packed contents. -/
  packedSize : Nat
  /-- Where the header of the entry begins. -/
  header : Nat
  deriving DecidableEq, Repr

/-- Whether the contents are encrypted. -/
def Line.isEncrypted (line : Line) : Bool :=
  line.flags.testBit 0

/-- The text of a name, in UTF-8 where the entry is marked so. -/
def nameText (flags : Nat) (name : List UInt8) : String :=
  if flags.testBit 11 then Utf8.decodeLossy name else CodePage437.decode name

/-- The method that stands for encryption and has to be explained elsewhere. -/
def hiddenMethod : Nat := 99

/-- The line of the directory at `offset`, in an archive that begins at `shift` and
whose directory begins at `directory`, and the place after the line.  Entries stand
before the directory. -/
def Line.at? (bytes : ByteArray) (shift directory offset : Nat) : Option (Line × Nat) := do
  guard (hasMark bytes directoryMark offset)
  let flags ← short? bytes (offset + 8)
  let method ← short? bytes (offset + 10)
  let nameLength ← short? bytes (offset + 28)
  let extraLength ← short? bytes (offset + 30)
  let commentLength ← short? bytes (offset + 32)
  let next := offset + 46 + nameLength + extraLength + commentLength
  let header := shift + (← long? bytes (offset + 42))
  guard (next ≤ bytes.size ∧ header < directory ∧ method ≠ hiddenMethod)
  return ({
    name := nameText flags (← piece? bytes (offset + 46) nameLength)
    flags
    method
    check := ← long? bytes (offset + 16)
    packedSize := ← long? bytes (offset + 20)
    header }, next)

/-- The `count` lines of a directory from `offset` on. -/
def lines? (bytes : ByteArray) (shift directory offset : Nat) : Nat → Option (List Line)
  | 0 => some []
  | count + 1 => do
      let (line, next) ← Line.at? bytes shift directory offset
      return line :: (← lines? bytes shift directory next count)

/-- The directory that an end record leads to. -/
def EndRecord.lines? (record : EndRecord) (bytes : ByteArray) : Option (List Line) := do
  guard (record.part = record.directoryPart)
  let shift ← record.shift? bytes
  let directory := shift + record.directoryOffset
  Zip.lines? bytes shift directory directory record.entriesHere

/-- The directory of the last end record before `position` that leads to one. -/
def directoryBefore? (bytes : ByteArray) : Nat → Option (List Line)
  | 0 => none
  | position + 1 =>
      match (EndRecord.at? bytes position).bind (·.lines? bytes) with
      | some lines => some lines
      | none => directoryBefore? bytes position

/-! ## Entries -/

/-- The packed contents of an entry, as far as there are any. -/
def packed? (bytes : ByteArray) (line : Line) : Option (List UInt8) := do
  guard (hasMark bytes entryMark line.header)
  let nameLength ← short? bytes (line.header + 26)
  let extraLength ← short? bytes (line.header + 28)
  let start := line.header + 30 + nameLength + extraLength
  return (bytes.data.extract start (start + line.packedSize)).toList

/-- Contents whose check is compared with that of the directory. -/
def checked (line : Line) (contents : ByteArray) : ArchiveContents :=
  if (Crc32.ofBytes contents.data.toList).toNat = line.check then .intact contents
  else .damaged "Invalid checksum"

/-- The contents of an entry.  They are stored as they are or compressed. -/
def contents (bytes : ByteArray) (line : Line) : ArchiveContents :=
  if line.isEncrypted then .unreadable "Password required to decrypt file"
  else
    match packed? bytes line with
    | none => .unreadable "Invalid local file header"
    | some packed =>
        if line.method = 0 then checked line ⟨packed.toArray⟩
        else if line.method = 8 then
          match Inflate.expand? packed with
          | some contents => checked line contents
          | none => .damaged "corrupt deflate stream"
        else .unreadable "Compression method not supported"

/-- The entries of an archive, each name once: in the first of its places, with the
last of its contents. -/
def entries? (bytes : ByteArray) : Option (List ArchiveEntry) := do
  let lines ← directoryBefore? bytes (bytes.size - 3)
  let distinct := lines.foldl (fun lines line => Association.set line.name line lines) []
  return distinct.map fun (name, line) => { name, contents := contents bytes line }

/-- Archives are zip archives. -/
instance archiveReader : ArchiveReader where
  entries bytes :=
    match entries? bytes with
    | some entries => .ok entries
    | none => .error "Could not find EOCD"

end PackageResolution.Zip

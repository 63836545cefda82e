/-!
# The SHA-256 digest

The message is padded with one set bit, zeros and its length in bits to a multiple
of sixty-four bytes, and every block of sixty-four bytes is mixed into eight words
of thirty-two bits.  The digest is the eight words after the last block.
-/

namespace PackageResolution.Sha256

/-- The words added in the sixty-four rounds. -/
def roundConstants : Array UInt32 := #[
    0x428a2f98, 0x71374491, 0xb5c0fbcf, 0xe9b5dba5, 0x3956c25b, 0x59f111f1, 0x923f82a4,
    0xab1c5ed5, 0xd807aa98, 0x12835b01, 0x243185be, 0x550c7dc3, 0x72be5d74, 0x80deb1fe,
    0x9bdc06a7, 0xc19bf174, 0xe49b69c1, 0xefbe4786, 0x0fc19dc6, 0x240ca1cc, 0x2de92c6f,
    0x4a7484aa, 0x5cb0a9dc, 0x76f988da, 0x983e5152, 0xa831c66d, 0xb00327c8, 0xbf597fc7,
    0xc6e00bf3, 0xd5a79147, 0x06ca6351, 0x14292967, 0x27b70a85, 0x2e1b2138, 0x4d2c6dfc,
    0x53380d13, 0x650a7354, 0x766a0abb, 0x81c2c92e, 0x92722c85, 0xa2bfe8a1, 0xa81a664b,
    0xc24b8b70, 0xc76c51a3, 0xd192e819, 0xd6990624, 0xf40e3585, 0x106aa070, 0x19a4c116,
    0x1e376c08, 0x2748774c, 0x34b0bcb5, 0x391c0cb3, 0x4ed8aa4a, 0x5b9cca4f, 0x682e6ff3,
    0x748f82ee, 0x78a5636f, 0x84c87814, 0x8cc70208, 0x90befffa, 0xa4506ceb, 0xbef9a3f7,
    0xc67178f2
  ]

/-- The eight words of the state. -/
structure State where
  a : UInt32
  b : UInt32
  c : UInt32
  d : UInt32
  e : UInt32
  f : UInt32
  g : UInt32
  h : UInt32
  deriving DecidableEq, Repr

/-- The state before the first block. -/
def State.initial : State :=
  { a := 0x6a09e667, b := 0xbb67ae85, c := 0x3c6ef372, d := 0xa54ff53a
    e := 0x510e527f, f := 0x9b05688c, g := 0x1f83d9ab, h := 0x5be0cd19 }

/-- A word turned right by `n` bits. -/
def turn (w n : UInt32) : UInt32 :=
  (w >>> n) ||| (w <<< (32 - n))

/-- The word of the message schedule at `index`, given the words before it. -/
def scheduleWord (words : Array UInt32) (index : Nat) : UInt32 :=
  let x := words.getD (index - 15) 0
  let y := words.getD (index - 2) 0
  let low := turn x 7 ^^^ turn x 18 ^^^ (x >>> 3)
  let high := turn y 17 ^^^ turn y 19 ^^^ (y >>> 10)
  words.getD (index - 16) 0 + low + words.getD (index - 7) 0 + high

/-- The sixty-four words of the message schedule of a block of sixteen words. -/
def schedule (block : Array UInt32) : Array UInt32 :=
  (List.range 48).foldl (fun words i => words.push (scheduleWord words (i + 16))) block

/-- One round: the state mixed with a word of the schedule and a constant. -/
def round (s : State) (word constant : UInt32) : State :=
  let sum1 := turn s.e 6 ^^^ turn s.e 11 ^^^ turn s.e 25
  let choice := (s.e &&& s.f) ^^^ (~~~s.e &&& s.g)
  let first := s.h + sum1 + choice + constant + word
  let sum0 := turn s.a 2 ^^^ turn s.a 13 ^^^ turn s.a 22
  let majority := (s.a &&& s.b) ^^^ (s.a &&& s.c) ^^^ (s.b &&& s.c)
  { a := first + (sum0 + majority), b := s.a, c := s.b, d := s.c
    e := s.d + first, f := s.e, g := s.f, h := s.g }

/-- The state after a block of sixteen words. -/
def compress (s : State) (block : Array UInt32) : State :=
  let words := schedule block
  let t := (List.range 64).foldl
    (fun t i => round t (words.getD i 0) (roundConstants.getD i 0)) s
  { a := s.a + t.a, b := s.b + t.b, c := s.c + t.c, d := s.d + t.d
    e := s.e + t.e, f := s.f + t.f, g := s.g + t.g, h := s.h + t.h }

/-- The last `count` bytes of a number, the highest first. -/
def bigEndian (count : Nat) (n : Nat) : List UInt8 :=
  (List.range count).reverse.map fun i => UInt8.ofNat (n / Nat.pow 256 i)

/-- The message followed by its padding. -/
def padded (message : ByteArray) : ByteArray :=
  let zeros := (119 - message.size % 64) % 64
  (0x80 :: List.replicate zeros 0 ++ bigEndian 8 (message.size * 8)).foldl
    ByteArray.push message

/-- The byte at `index`; beyond the end there are zeros. -/
def byteAt (bytes : ByteArray) (index : Nat) : UInt8 :=
  if inside : index < bytes.size then bytes[index] else 0

/-- The word that starts at the byte `index`, highest byte first. -/
def wordAt (bytes : ByteArray) (index : Nat) : UInt32 :=
  ((byteAt bytes index).toUInt32 <<< 24) ||| ((byteAt bytes (index + 1)).toUInt32 <<< 16) |||
    ((byteAt bytes (index + 2)).toUInt32 <<< 8) ||| (byteAt bytes (index + 3)).toUInt32

/-- The block of sixteen words that starts at the byte `index`. -/
def blockAt (bytes : ByteArray) (index : Nat) : Array UInt32 :=
  (Array.range 16).map fun i => wordAt bytes (index + 4 * i)

/-- The state after all blocks of a message. -/
def finalState (message : ByteArray) : State :=
  let bytes := padded message
  (List.range (bytes.size / 64)).foldl
    (fun s i => compress s (blockAt bytes (64 * i))) State.initial

/-- The digest of a message in thirty-two bytes. -/
def digest (message : ByteArray) : List UInt8 :=
  let s := finalState message
  [s.a, s.b, s.c, s.d, s.e, s.f, s.g, s.h].flatMap fun w => bigEndian 4 w.toNat

end PackageResolution.Sha256

/-!
# Expanding compressed data

Compressed data is a sequence of bits, read from the lowest bit of each byte.  It
consists of blocks; a block is either copied as it is or written as symbols of a
prefix code.  A symbol is a byte, the end of the block, or the length of a piece
that repeats earlier output, which is followed by the distance to that output.

The reader is lenient in one respect: a distance may reach before the start of the
output, where zeros are assumed.
-/

namespace PackageResolution.Inflate

/-- What is left of the input, bit by bit. -/
abbrev Bits := List Bool

/-- The bits of a byte from the lowest. -/
def bitsOfByte (byte : UInt8) : Bits :=
  (List.range 8).map fun i => byte.toNat.testBit i

/-- The bits of a sequence of bytes. -/
def bits (bytes : List UInt8) : Bits :=
  bytes.flatMap bitsOfByte

/-- A number of `count` bits, lowest bit first, and the bits after it. -/
def number? : Nat → Bits → Option (Nat × Bits)
  | 0, input => some (0, input)
  | _ + 1, [] => none
  | count + 1, bit :: rest =>
      (number? count rest).map fun parsed => (bit.toNat + 2 * parsed.1, parsed.2)

/-! ## Prefix codes -/

/-- A prefix code in which the words of one length follow each other in the order
of their symbols, after all shorter words: the symbols of each length from one
bit upward. -/
structure Code where
  /-- The symbols whose words have one bit, two bits, and so on. -/
  byLength : List (List Nat)
  deriving DecidableEq, Repr

/-- The longest word of a code. -/
def maxWordLength : Nat := 15

namespace Code

/-- The code whose words have the given lengths, symbol by symbol; a length of zero
leaves a symbol out. -/
def ofLengths (lengths : List Nat) : Code :=
  ⟨(List.range maxWordLength).map fun l =>
    (lengths.zipIdx.filter fun entry => entry.1 = l + 1).map Prod.snd⟩

/-- How many words of `maxWordLength` bits would begin with a word of the code. -/
def coverage (code : Code) : Nat :=
  code.byLength.zipIdx.foldl
    (fun total entry => total + entry.1.length * Nat.pow 2 (maxWordLength - 1 - entry.2)) 0

/-- Whether the words of the code leave no sequence of bits without a word and none
with two.  A code of at most one symbol need not. -/
def isUsable (code : Code) : Bool :=
  code.coverage = Nat.pow 2 maxWordLength || code.byLength.flatten.length ≤ 1

/-- The symbol whose word is next, and the bits after the word.  `word` is the
number that the bits read so far write, `first` the least number that no shorter
word begins. -/
def symbolFrom? : List (List Nat) → Nat → Nat → Bits → Option (Nat × Bits)
  | symbols :: longer, word, first, bit :: rest =>
      let word := 2 * word + bit.toNat
      let first := 2 * first
      match symbols[word - first]? with
      | some symbol => some (symbol, rest)
      | none => symbolFrom? longer word (first + symbols.length) rest
  | _, _, _, _ => none

/-- The symbol whose word is next, and the bits after the word. -/
def symbol? (code : Code) (input : Bits) : Option (Nat × Bits) :=
  symbolFrom? code.byLength 0 0 input

/-- The code of the bytes and lengths in a block that brings no code. -/
def fixedLiteral : Code :=
  ofLengths (List.replicate 144 8 ++ List.replicate 112 9 ++ List.replicate 24 7 ++
    List.replicate 8 8)

/-- The code of the distances in a block that brings no code. -/
def fixedDistance : Code :=
  ofLengths (List.replicate 32 5)

end Code

/-! ## The codes that a block brings -/

/-- The order in which the word lengths of the code for word lengths are given. -/
def lengthOrder : List Nat :=
  [16, 17, 18, 0, 8, 7, 9, 6, 10, 5, 11, 4, 12, 3, 13, 2, 14, 1, 15]

/-- `count` numbers of three bits, and the bits after them. -/
def triples? : Nat → Bits → Option (List Nat × Bits)
  | 0, input => some ([], input)
  | count + 1, input => do
      let (first, rest) ← number? 3 input
      let (others, rest) ← triples? count rest
      return (first :: others, rest)

/-- Word lengths until there are `count` of them; `found` lists those so far, from
the last.  The fuel bounds the number of symbols. -/
def wordLengths? (code : Code) (count : Nat) :
    Nat → List Nat → Bits → Option (List Nat × Bits)
  | 0, _, _ => none
  | fuel + 1, found, input =>
      if count ≤ found.length then
        if count = found.length then some (found.reverse, input) else none
      else do
        let (symbol, rest) ← code.symbol? input
        if symbol < 16 then wordLengths? code count fuel (symbol :: found) rest
        else
          let (value, width, least) ←
            if symbol = 16 then found.head?.map fun last => (last, 2, 3)
            else if symbol = 17 then some (0, 3, 3)
            else some (0, 7, 11)
          let (extra, rest) ← number? width rest
          wordLengths? code count fuel (List.replicate (least + extra) value ++ found) rest

/-- The codes at the start of a block: that of bytes and lengths, and that of
distances. -/
def codes? (input : Bits) : Option ((Code × Code) × Bits) := do
  let (literals, rest) ← number? 5 input
  let (distances, rest) ← number? 5 rest
  let (lengths, rest) ← number? 4 rest
  let literalCount := literals + 257
  let distanceCount := distances + 1
  guard (literalCount ≤ 286 ∧ distanceCount ≤ 30)
  let (given, rest) ← triples? (lengths + 4) rest
  let lengthCode := Code.ofLengths <| (List.range 19).map fun symbol =>
    ((lengthOrder.zip given).lookup symbol).getD 0
  guard lengthCode.isUsable
  let count := literalCount + distanceCount
  let (words, rest) ← wordLengths? lengthCode count (count + 1) [] rest
  let literalCode := Code.ofLengths (words.take literalCount)
  let distanceCode := Code.ofLengths (words.drop literalCount)
  guard (literalCode.isUsable ∧ distanceCode.isUsable)
  return ((literalCode, distanceCode), rest)

/-! ## Blocks -/

/-- The least value and the number of further bits of each symbol for a length. -/
def lengthRanges : List (Nat × Nat) :=
  [(3, 0), (4, 0), (5, 0), (6, 0), (7, 0), (8, 0), (9, 0), (10, 0), (11, 1), (13, 1),
    (15, 1), (17, 1), (19, 2), (23, 2), (27, 2), (31, 2), (35, 3), (43, 3), (51, 3),
    (59, 3), (67, 4), (83, 4), (99, 4), (115, 4), (131, 5), (163, 5), (195, 5),
    (227, 5), (258, 0)]

/-- The least value and the number of further bits of each symbol for a distance. -/
def distanceRanges : List (Nat × Nat) :=
  [(1, 0), (2, 0), (3, 0), (4, 0), (5, 1), (7, 1), (9, 2), (13, 2), (17, 3), (25, 3),
    (33, 4), (49, 4), (65, 5), (97, 5), (129, 6), (193, 6), (257, 7), (385, 7),
    (513, 8), (769, 8), (1025, 9), (1537, 9), (2049, 10), (3073, 10), (4097, 11),
    (6145, 11), (8193, 12), (12289, 12), (16385, 13), (24577, 13)]

/-- The value of a symbol of `ranges` with its further bits, and the bits after
them. -/
def ranged? (ranges : List (Nat × Nat)) (symbol : Nat) (input : Bits) :
    Option (Nat × Bits) :=
  match ranges[symbol]? with
  | none => none
  | some (least, width) =>
      (number? width input).map fun parsed => (least + parsed.1, parsed.2)

/-- The output with the piece of `length` bytes that begins `distance` bytes before
its end; the piece may run into itself. -/
def repeatBack (distance : Nat) : Nat → Array UInt8 → Array UInt8
  | 0, output => output
  | length + 1, output =>
      let byte := if distance ≤ output.size then output.getD (output.size - distance) 0 else 0
      repeatBack distance length (output.push byte)

/-- The output after the symbols of a block, and the bits after the block.  The
fuel bounds the number of symbols. -/
def symbols? (literalCode distanceCode : Code) :
    Nat → Bits → Array UInt8 → Option (Array UInt8 × Bits)
  | 0, _, _ => none
  | fuel + 1, input, output => do
      let (symbol, rest) ← literalCode.symbol? input
      if symbol < 256 then
        symbols? literalCode distanceCode fuel rest (output.push (UInt8.ofNat symbol))
      else if symbol = 256 then some (output, rest)
      else
        let (length, rest) ← ranged? lengthRanges (symbol - 257) rest
        let (distanceSymbol, rest) ← distanceCode.symbol? rest
        let (distance, rest) ← ranged? distanceRanges distanceSymbol rest
        symbols? literalCode distanceCode fuel rest (repeatBack distance length output)

/-- The output after `count` bytes that are copied, and the bits after them. -/
def copied? : Nat → Bits → Array UInt8 → Option (Array UInt8 × Bits)
  | 0, input, output => some (output, input)
  | count + 1, input, output => do
      let (byte, rest) ← number? 8 input
      copied? count rest (output.push (UInt8.ofNat byte))

/-- The output after a copied block.  The block begins at the next byte with its
size, written twice, the second time with all bits turned. -/
def storedBlock? (input : Bits) (output : Array UInt8) : Option (Array UInt8 × Bits) := do
  let (size, rest) ← number? 16 (input.drop (input.length % 8))
  let (turned, rest) ← number? 16 rest
  guard (size + turned = Nat.pow 2 16 - 1)
  copied? size rest output

/-- The output after one block of the given kind, and the bits after the block. -/
def block? (kind : Nat) (input : Bits) (output : Array UInt8) :
    Option (Array UInt8 × Bits) :=
  if kind = 0 then storedBlock? input output
  else if kind = 1 then
    symbols? Code.fixedLiteral Code.fixedDistance (input.length + 1) input output
  else if kind = 2 then do
    let ((literalCode, distanceCode), rest) ← codes? input
    symbols? literalCode distanceCode (rest.length + 1) rest output
  else none

/-- The output after all blocks.  What follows the last block is not looked at.
The fuel bounds the number of blocks. -/
def blocks? : Nat → Bits → Array UInt8 → Option (Array UInt8)
  | 0, _, _ => none
  | fuel + 1, input, output => do
      let (last, rest) ← number? 1 input
      let (kind, rest) ← number? 2 rest
      let (output, rest) ← block? kind rest output
      if last = 1 then some output else blocks? fuel rest output

/-- The data that compressed bytes stand for. -/
def expand? (bytes : List UInt8) : Option ByteArray :=
  let input := bits bytes
  (blocks? (input.length + 1) input #[]).map ByteArray.mk

end PackageResolution.Inflate

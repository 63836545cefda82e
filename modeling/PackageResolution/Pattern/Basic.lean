import PackageResolution.Pattern.LetterCase
import PackageResolution.Pattern.WordClass

/-!
# Patterns

A pattern describes pieces of text.  It is built from sets of characters and
conditions on a place in the text by sequence, choice and repetition.
-/

namespace PackageResolution

/-- A set of characters. -/
inductive CharSet
  | empty
  /-- The characters from `first` to `last`. -/
  | range (first last : Char)
  /-- The characters of words, in all scripts or in ASCII. -/
  | word (unicode : Bool)
  /-- The decimal digits, in all scripts or in ASCII. -/
  | digit (unicode : Bool)
  /-- The white space, in all scripts or in ASCII. -/
  | blank (unicode : Bool)
  | union (a b : CharSet)
  | intersection (a b : CharSet)
  | complement (a : CharSet)
  /-- The characters that differ from one of the set at most in case. -/
  | anyCase (a : CharSet)
  deriving DecidableEq, Repr

namespace CharSet

/-- Whether a character is ASCII white space. -/
def isAsciiBlank (c : Char) : Bool :=
  c == ' ' || (0x09 ≤ c.toNat && c.toNat ≤ 0x0D)

/-- Whether a character is in a set. -/
def contains : CharSet → Char → Bool
  | .empty, _ => false
  | .range first last, c => first ≤ c && c ≤ last
  | .word unicode, c => if unicode then Text.isWord c else Text.isAsciiWord c
  | .digit unicode, c => if unicode then Text.isDecimalDigit c else c.isDigit
  | .blank unicode, c => if unicode then Text.isBlank c else isAsciiBlank c
  | .union a b, c => a.contains c || b.contains c
  | .intersection a b, c => a.contains c && b.contains c
  | .complement a, c => !a.contains c
  | .anyCase a, c => (Text.caseVariants c).any a.contains

/-- About how many steps an automaton needs to tell whether a character is in a set.
The classes of all scripts and complements are made of many ranges. -/
def size : CharSet → Nat
  | .empty => 1
  | .range _ _ => 1
  | .word unicode => if unicode then 500 else 1
  | .digit unicode => if unicode then 100 else 1
  | .blank unicode => if unicode then 10 else 1
  | .union a b => max a.size b.size
  | .intersection a b => max a.size b.size
  | .complement a => max a.size 10
  | .anyCase a => a.size

/-- The set of one character. -/
def single (c : Char) : CharSet := .range c c

/-- The characters of `a` that are not in `b`. -/
def difference (a b : CharSet) : CharSet :=
  .intersection a (.complement b)

end CharSet

/-- A condition on a place in a text. -/
inductive Condition
  | startOfText
  | endOfText
  /-- The start of a line; `carriageReturns` end lines as well. -/
  | startOfLine (carriageReturns : Bool)
  /-- The end of a line; `carriageReturns` end lines as well. -/
  | endOfLine (carriageReturns : Bool)
  /-- A word begins or ends. -/
  | wordBoundary (unicode : Bool)
  /-- No word begins or ends. -/
  | insideOrOutside (unicode : Bool)
  /-- A word begins. -/
  | wordStart (unicode : Bool)
  /-- A word ends. -/
  | wordEnd (unicode : Bool)
  /-- No word character stands before the place. -/
  | noWordBefore (unicode : Bool)
  /-- No word character stands after the place. -/
  | noWordAfter (unicode : Bool)
  deriving DecidableEq, Repr

/-- A pattern. -/
inductive Pattern
  /-- The empty piece. -/
  | nothing
  /-- One character of a set. -/
  | one (set : CharSet)
  /-- The empty piece at a place that meets a condition. -/
  | place (condition : Condition)
  /-- A piece of one pattern and then one of another. -/
  | sequence (first second : Pattern)
  /-- A piece of either of two patterns. -/
  | choice (first second : Pattern)
  /-- At least `least` and, unless that is absent, at most `most` pieces. -/
  | repeated (pattern : Pattern) (least : Nat) (most : Option Nat)
  deriving DecidableEq, Repr

namespace Pattern

/-- One pattern after the other. -/
def sequenceOf (patterns : List Pattern) : Pattern :=
  patterns.foldr sequence nothing

/-- The pattern of a text that is taken as it is. -/
def literal (text : String) : Pattern :=
  sequenceOf (text.toList.map fun c => one (.single c))

/-- About how many steps an automaton needs for a pattern: a repetition is written out,
each piece that may be absent with a choice before it. -/
def size : Pattern → Nat
  | .nothing => 0
  | .one set => set.size
  | .place _ => 1
  | .sequence first second => first.size + second.size
  | .choice first second => first.size + second.size + 1
  | .repeated pattern least most =>
      match most with
      | some most => least * pattern.size + (most - least) * (pattern.size + 1)
      | none => (max least 1) * pattern.size + 1

/-- The size from which on a pattern is too large: ten megabytes of steps. -/
def sizeLimit : Nat := 10 * Nat.pow 2 20 / 32

/-- The texts that begin with a piece of a pattern. -/
def atStart (pattern : Pattern) : Pattern :=
  sequence (place .startOfText) pattern

end Pattern

end PackageResolution

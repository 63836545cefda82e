import PackageResolution.Pattern.Basic
import PackageResolution.Text.Cut
import PackageResolution.Text.Decimal

/-!
# Reading patterns

The written form of patterns: choices between bars, sequences, groups in round
brackets, sets of characters in square brackets, repetition marks after what is
repeated, and escapes after a backslash.  Letters after `(?` change how the rest of
the group is read.  Whatever has no meaning is an error, so that a pattern cannot
silently allow less or more than its author thought.

Sets of characters by property, back-references and conditions on the text around a
piece are not part of the language.
-/

namespace PackageResolution.Pattern

/-- How a part of a pattern is read. -/
structure Mode where
  /-- Letters stand for both of their cases. -/
  ignoresCase : Bool
  /-- The marks for start and end hold at lines. -/
  byLine : Bool
  /-- The dot stands for the ends of lines as well. -/
  dotSpansLines : Bool
  /-- Blanks and comments are passed over. -/
  isSpaced : Bool
  /-- Classes of characters are those of all scripts. -/
  isUnicode : Bool
  /-- Carriage returns end lines as well. -/
  carriageReturns : Bool
  deriving DecidableEq, Repr

/-- How a pattern is read at its start. -/
def Mode.initial : Mode :=
  { ignoresCase := false, byLine := false, dotSpansLines := false, isSpaced := false,
    isUnicode := true, carriageReturns := false }

/-- The input after blanks and comments, where these are passed over. -/
def skipBlanks (mode : Mode) (input : List Char) : List Char :=
  if mode.isSpaced then go false input else input
where
  /-- The input after blanks and comments; `inComment` says that a comment has
  begun. -/
  go (inComment : Bool) : List Char → List Char
    | [] => []
    | c :: rest =>
        if inComment then go (c ≠ '\n') rest
        else if c = '#' then go true rest
        else if Text.isBlank c then go false rest
        else c :: rest

/-! ## Sets and escapes -/

/-- The set of all characters. -/
def allChars : CharSet := .complement .empty

/-- The ASCII characters. -/
def asciiChars : CharSet := .range '\x00' '\x7f'

/-- A set with the other case of its letters, where case is ignored. -/
def folded (mode : Mode) (set : CharSet) : CharSet :=
  if !mode.ignoresCase then set
  else if mode.isUnicode then .anyCase set
  else .intersection (.anyCase set) asciiChars

/-- The complement of a set.  Outside of Unicode it would contain pieces of
characters. -/
def negated? (mode : Mode) (set : CharSet) : Option CharSet :=
  if mode.isUnicode then some (.complement set) else none

/-- The set that a single character stands for. -/
def charSet? (mode : Mode) (c : Char) : Option CharSet :=
  if mode.isUnicode || c.toNat < 0x80 then some (folded mode (.single c)) else none

/-- What an escape stands for. -/
inductive Escape
  | char (c : Char)
  | set (members : CharSet)
  | place (condition : Condition)
  deriving DecidableEq, Repr

/-- The value of a hexadecimal digit. -/
def hexValue? (c : Char) : Option Nat :=
  if c.isDigit then some (c.toNat - '0'.toNat)
  else if 'a' ≤ c ∧ c ≤ 'f' then some (c.toNat - 'a'.toNat + 10)
  else if 'A' ≤ c ∧ c ≤ 'F' then some (c.toNat - 'A'.toNat + 10)
  else none

/-- The character whose code point some hexadecimal digits write. -/
def hexChar? (mode : Mode) (digits : List Char) : Option Char := do
  guard (digits ≠ [])
  let n ← digits.foldlM (fun n d => (hexValue? d).map (n * 16 + ·)) 0
  guard (n.isValidChar ∧ (mode.isUnicode ∨ n < 0x80))
  return Char.ofNat n

/-- The character after the letter of an escape in hexadecimal, and the input after
it: digits in braces, or `count` digits. -/
def hexEscape? (mode : Mode) (count : Nat) : List Char → Option (Char × List Char)
  | '{' :: rest =>
      match Text.cutList? '\x7d' rest with
      | none => none
      | some (digits, rest) => (hexChar? mode digits).map (·, rest)
  | input =>
      if (input.take count).length = count then
        (hexChar? mode (input.take count)).map (·, input.drop count)
      else none

/-- The conditions that a name in braces after `\b` stands for. -/
def boundary? (unicode : Bool) (name : List Char) : Option Condition :=
  if name = "start".toList then some (.wordStart unicode)
  else if name = "end".toList then some (.wordEnd unicode)
  else if name = "start-half".toList then some (.noWordBefore unicode)
  else if name = "end-half".toList then some (.noWordAfter unicode)
  else none

/-- The condition after `\b`, and the input after it. -/
def boundaryEscape? (mode : Mode) (input : List Char) : Option (Condition × List Char) :=
  match input with
  | '{' :: c :: rest =>
      if c.isAlpha || c = '-' then
        match Text.cutList? '\x7d' (c :: rest) with
        | none => none
        | some (name, rest) => (boundary? mode.isUnicode name).map (·, rest)
      else some (.wordBoundary mode.isUnicode, input)
  | _ => some (.wordBoundary mode.isUnicode, input)

/-- Whether a character stands for itself after a backslash. -/
def isEscapable (c : Char) : Bool :=
  c.toNat < 0x80 && !c.isAlphanum && c != '<' && c != '>'

/-- The control character that a letter stands for after a backslash. -/
def control? (c : Char) : Option Char :=
  if c = 'a' then some '\x07'
  else if c = 'f' then some '\x0c'
  else if c = 't' then some '\t'
  else if c = 'n' then some '\n'
  else if c = 'r' then some '\r'
  else if c = 'v' then some '\x0b'
  else none

/-- The class that a letter stands for after a backslash. -/
def class? (mode : Mode) (c : Char) : Option CharSet :=
  if c = 'd' then some (.digit mode.isUnicode)
  else if c = 's' then some (.blank mode.isUnicode)
  else if c = 'w' then some (.word mode.isUnicode)
  else if c = 'D' then negated? mode (.digit mode.isUnicode)
  else if c = 'S' then negated? mode (.blank mode.isUnicode)
  else if c = 'W' then negated? mode (.word mode.isUnicode)
  else none

/-- What the input after a backslash stands for, and the input after it. -/
def escape? (mode : Mode) : List Char → Option (Escape × List Char)
  | [] => none
  | c :: rest =>
      let hex (count : Nat) :=
        (hexEscape? mode count rest).map fun parsed => (Escape.char parsed.1, parsed.2)
      if isEscapable c then some (.char c, rest)
      else
        match control? c, class? mode c with
        | some control, _ => some (.char control, rest)
        | none, some set => some (.set set, rest)
        | none, none =>
            if c = 'x' then hex 2
            else if c = 'u' then hex 4
            else if c = 'U' then hex 8
            else if c = 'A' then some (.place .startOfText, rest)
            else if c = 'z' then some (.place .endOfText, rest)
            else if c = '<' then some (.place (.wordStart mode.isUnicode), rest)
            else if c = '>' then some (.place (.wordEnd mode.isUnicode), rest)
            else if c = 'b' then
              (boundaryEscape? mode rest).map fun parsed => (.place parsed.1, parsed.2)
            else if c = 'B' ∧ mode.isUnicode then some (.place (.insideOrOutside true), rest)
            else none

/-! ## Sets in square brackets -/

/-- The set of a name between colons. -/
def namedSet? (name : List Char) : Option CharSet :=
  let lower := CharSet.range 'a' 'z'
  let upper := CharSet.range 'A' 'Z'
  let digits := CharSet.range '0' '9'
  let visible := CharSet.range '!' '~'
  let alphanumeric := CharSet.union digits (.union lower upper)
  let sets : List (String × CharSet) := [
    ("alnum", alphanumeric), ("alpha", .union lower upper), ("ascii", asciiChars),
    ("blank", .union (.single ' ') (.single '\t')),
    ("cntrl", .union (.range '\x00' '\x1f') (.single '\x7f')), ("digit", digits),
    ("graph", visible), ("lower", lower), ("print", .range ' ' '~'),
    ("punct", visible.difference alphanumeric), ("space", .blank false), ("upper", upper),
    ("word", .word false), ("xdigit", .union digits (.union (.range 'a' 'f') (.range 'A' 'F')))]
  sets.lookup (String.ofList name)

/-- The set named after `[:`, and the input after it. -/
def colonSet? (mode : Mode) (input : List Char) : Option (CharSet × List Char) := do
  let (name, rest) ← Text.cutList? ':' input
  match rest with
  | ']' :: rest =>
      match name with
      | '^' :: name => return (← negated? mode (← namedSet? name), rest)
      | name => return (← namedSet? name, rest)
  | _ => none

/-- How the set to the left of a mark is combined with that to its right. -/
inductive Combination
  | intersection
  | difference
  | symmetricDifference
  deriving DecidableEq, Repr

/-- Two sets combined. -/
def Combination.apply (combination : Combination) (a b : CharSet) : CharSet :=
  match combination with
  | .intersection => .intersection a b
  | .difference => a.difference b
  | .symmetricDifference => .union (a.difference b) (b.difference a)

/-- A set to the right of the marks before it. -/
def settle (mode : Mode) : Option (CharSet × Combination) → CharSet → CharSet
  | none, items => folded mode items
  | some (left, combination), items => combination.apply left (folded mode items)

/-- A single character or a class inside square brackets, and the input after it. -/
def member? (mode : Mode) : List Char → Option (Escape × List Char)
  | [] => none
  | '\\' :: rest =>
      match escape? mode rest with
      | some (.place _, _) => none
      | answer => answer
  | c :: rest => if mode.isUnicode || c.toNat < 0x80 then some (.char c, rest) else none

/-- The set that a member stands for. -/
def Escape.toSet : Escape → CharSet
  | .char c => .single c
  | .set members => members
  | .place _ => .empty

/-- Whether the input goes on with a bound of a range: a dash that neither ends the
set nor begins a mark. -/
def continuesRange (mode : Mode) : List Char → Bool
  | '-' :: rest =>
      match skipBlanks mode rest with
      | ']' :: _ => false
      | '-' :: _ => false
      | _ => true
  | _ => false

/-- A member or a range of members, and the input after it. -/
def range? (mode : Mode) (input : List Char) : Option (CharSet × List Char) := do
  let (first, rest) ← member? mode input
  let rest := skipBlanks mode rest
  if continuesRange mode rest then
    let (last, rest) ← member? mode (skipBlanks mode (rest.drop 1))
    match first, last with
    | .char first, .char last =>
        if first ≤ last then return (.range first last, rest) else none
    | _, _ => none
  else return (first.toSet, rest)

/-- The members at the start of square brackets that would have another meaning
later, and the input after them: dashes, and a closing bracket if there are no
dashes. -/
def openingMembers (mode : Mode) (input : List Char) : CharSet × List Char :=
  let input := skipBlanks mode input
  match input with
  | '-' :: _ => (.single '-', input.dropWhile (· = '-'))
  | ']' :: rest => (.single ']', rest)
  | _ => (.empty, input)

/-- Whether square brackets begin with the sign of the complement, and the input
after it. -/
def complementSign (mode : Mode) (input : List Char) : Bool × List Char :=
  match skipBlanks mode input with
  | '^' :: rest => (true, rest)
  | input => (false, input)

/-- The set up to the closing bracket, and the input after it.  `left` is the set to
the left of the last mark and `items` holds the members after it.  The fuel bounds
the number of members. -/
def members? (mode : Mode) :
    Nat → Option (CharSet × Combination) → CharSet → List Char → Option (CharSet × List Char)
  | 0, _, _, _ => none
  | fuel + 1, left, items, input =>
      let mark (combination : Combination) (rest : List Char) :=
        members? mode fuel (some (settle mode left items, combination)) .empty rest
      match skipBlanks mode input with
      | [] => none
      | ']' :: rest => some (settle mode left items, rest)
      | '&' :: '&' :: rest => mark .intersection rest
      | '-' :: '-' :: rest => mark .difference rest
      | '~' :: '~' :: rest => mark .symmetricDifference rest
      | '[' :: rest =>
          let named :=
            match rest with
            | ':' :: rest => colonSet? mode rest
            | _ => none
          match named with
          | some (set, rest) => members? mode fuel left (.union items set) rest
          | none =>
              let (isNegated, rest) := complementSign mode rest
              let (first, rest) := openingMembers mode rest
              match members? mode fuel none first rest with
              | none => none
              | some (set, rest) =>
                  match if isNegated then negated? mode (folded mode set)
                    else some (folded mode set) with
                  | none => none
                  | some set => members? mode fuel left (.union items set) rest
      | rest =>
          match range? mode rest with
          | none => none
          | some (set, rest) => members? mode fuel left (.union items set) rest

/-- The set after an opening square bracket, and the input after it. -/
def brackets? (mode : Mode) (input : List Char) : Option (CharSet × List Char) := do
  let (isNegated, rest) := complementSign mode input
  let (first, rest) := openingMembers mode rest
  let (set, rest) ← members? mode (rest.length + 1) none first rest
  let set := folded mode set
  return (← if isNegated then negated? mode set else some set, rest)

/-! ## Repetition -/

/-- The input after the sign that a repetition is to be short, if it is there. -/
def skipLazy : List Char → List Char
  | '?' :: rest => rest
  | input => input

/-- The bounds between the braces of a repetition. -/
def bounds? (text : List Char) : Option (Nat × Option Nat) := do
  let number (digits : List Char) : Option Nat := do
    let n ← Text.decimal? (String.ofList
      ((digits.dropWhile Text.isBlank).reverse.dropWhile Text.isBlank).reverse)
    if n < Nat.pow 2 32 then some n else none
  match Text.cutList? ',' text with
  | none =>
      let n ← number text
      return (n, some n)
  | some (least, most) =>
      let least ← number least
      if most.all Text.isBlank then return (least, none)
      else
        let most ← number most
        if least ≤ most then return (least, some most) else none

/-- The bounds of the repetition that the input begins with, and the input after
it. -/
def repetition? : List Char → Option ((Nat × Option Nat) × List Char)
  | '*' :: rest => some ((0, none), skipLazy rest)
  | '+' :: rest => some ((1, none), skipLazy rest)
  | '?' :: rest => some ((0, some 1), skipLazy rest)
  | '{' :: rest => do
      let (text, rest) ← Text.cutList? '\x7d' rest
      return (← bounds? text, skipLazy rest)
  | _ => none

/-! ## Groups -/

/-- The letters of a mode change, and the input from the character after them.  A
letter may occur once, and so may the dash; what follows the dash is switched off.
-/
def modeLetters? : Bool → List Char → Mode → List Char → Option ((Mode × Bool) × List Char)
  | on, seen, mode, c :: rest =>
      if c = ':' ∨ c = ')' then
        if seen.head? = some '-' then none else some ((mode, !seen.isEmpty), c :: rest)
      else if c ∈ seen then none
      else if c = '-' then modeLetters? false (c :: seen) mode rest
      else if c = 'i' then modeLetters? on (c :: seen) { mode with ignoresCase := on } rest
      else if c = 'm' then modeLetters? on (c :: seen) { mode with byLine := on } rest
      else if c = 's' then modeLetters? on (c :: seen) { mode with dotSpansLines := on } rest
      else if c = 'U' then modeLetters? on (c :: seen) mode rest
      else if c = 'u' then modeLetters? on (c :: seen) { mode with isUnicode := on } rest
      else if c = 'R' then modeLetters? on (c :: seen) { mode with carriageReturns := on } rest
      else if c = 'x' then modeLetters? on (c :: seen) { mode with isSpaced := on } rest
      else none
  | _, _, _, [] => none

/-- Whether a text can name a group. -/
def isGroupName : List Char → Bool
  | [] => false
  | first :: rest =>
      (first = '_' || first.isAlpha) &&
        rest.all fun c => c.isAlphanum || c = '_' || c = '.' || c = '[' || c = ']'

/-- How a group begins. -/
inductive Opening
  /-- The mode of what follows in the group around it. -/
  | change (mode : Mode)
  /-- A group that is read in a mode, with its name if it has one. -/
  | group (mode : Mode) (name : Option (List Char))
  deriving DecidableEq, Repr

/-- A name up to the bracket that closes it, and the input after it. -/
def groupName? (mode : Mode) (input : List Char) : Option (Opening × List Char) := do
  let (name, rest) ← Text.cutList? '>' input
  if isGroupName name then some (.group mode (some name), rest) else none

/-- How the group begins whose opening bracket was read, and the input after its
beginning. -/
def opening? (mode : Mode) : List Char → Option (Opening × List Char)
  | '?' :: '=' :: _ => none
  | '?' :: '!' :: _ => none
  | '?' :: '<' :: '=' :: _ => none
  | '?' :: '<' :: '!' :: _ => none
  | '?' :: 'P' :: '<' :: rest => groupName? mode rest
  | '?' :: '<' :: rest => groupName? mode rest
  | '?' :: rest =>
      match modeLetters? true [] mode rest with
      | some ((changed, hasLetters), ')' :: rest) =>
          if hasLetters then some (.change changed, rest) else none
      | some ((changed, _), _ :: rest) => some (.group changed none, rest)
      | _ => none
  | rest => some (.group mode none, rest)

/-- What is left to be read, and the names of the groups so far. -/
structure State where
  /-- What is left to be read. -/
  input : List Char
  /-- The names of the groups so far. -/
  names : List (List Char)

/-- The pattern of some choices, the last one first. -/
def choiceOf : List Pattern → Pattern
  | [] => nothing
  | [pattern] => pattern
  | last :: before => choice (choiceOf before) last

/-- The pattern of one character of a mode: a mark, or the character itself. -/
def character? (mode : Mode) (c : Char) : Option Pattern :=
  if c = '.' then
    if !mode.isUnicode then none
    else if mode.dotSpansLines then some (one allChars)
    else if mode.carriageReturns then
      some (one (.complement (.union (.single '\n') (.single '\r'))))
    else some (one (.complement (.single '\n')))
  else if c = '^' then
    some (place (if mode.byLine then .startOfLine mode.carriageReturns else .startOfText))
  else if c = '$' then
    some (place (if mode.byLine then .endOfLine mode.carriageReturns else .endOfText))
  else (charSet? mode c).map one

/-- The pattern up to the end of a group or of the input.  `choices` are those before
the last bar and `items` the parts after it, both the last one first; a change of
mode is an item without a pattern.  The fuel bounds the number of steps. -/
def choices? : Nat → Mode → List Pattern → List (Option Pattern) → State →
    Option (Pattern × State)
  | 0, _, _, _, _ => none
  | fuel + 1, mode, choices, items, state =>
      let done := sequenceOf (items.reverse.filterMap id)
      let input := skipBlanks mode state.input
      let goOn (item : Option Pattern) (rest : List Char) :=
        choices? fuel mode choices (item :: items) { state with input := rest }
      match input with
      | [] => some (choiceOf (done :: choices), { state with input })
      | ')' :: _ => some (choiceOf (done :: choices), { state with input })
      | '|' :: rest => choices? fuel mode (done :: choices) [] { state with input := rest }
      | '(' :: rest =>
          match opening? mode rest with
          | none => none
          | some (.change changed, rest) =>
              choices? fuel changed choices (none :: items) { state with input := rest }
          | some (.group inner name, rest) =>
              if name.any (state.names.contains ·) then none
              else
                match choices? fuel inner [] []
                    { input := rest, names := name.toList ++ state.names } with
                | some (pattern, { input := ')' :: rest, names }) =>
                    choices? fuel mode choices (some pattern :: items) { input := rest, names }
                | _ => none
      | '[' :: rest =>
          match brackets? mode rest with
          | none => none
          | some (set, rest) => goOn (some (one set)) rest
      | '\\' :: rest =>
          match escape? mode rest with
          | none => none
          | some (.char c, rest) =>
              match charSet? mode c with
              | none => none
              | some set => goOn (some (one set)) rest
          | some (.set set, rest) => goOn (some (one set)) rest
          | some (.place condition, rest) => goOn (some (place condition)) rest
      | c :: rest =>
          if c = '*' ∨ c = '+' ∨ c = '?' ∨ c = '\x7b' then
            match repetition? (c :: rest), items with
            | some ((least, most), rest), some pattern :: before =>
                choices? fuel mode choices (some (repeated pattern least most) :: before)
                  { state with input := rest }
            | _, _ => none
          else
            match character? mode c with
            | none => none
            | some pattern => goOn (some pattern) rest

/-- The pattern that a text writes, unless it is too large. -/
def parse? (text : String) : Option Pattern :=
  let input := text.toList
  match choices? (input.length + 1) .initial [] [] { input, names := [] } with
  | some (pattern, { input := [], .. }) =>
      if pattern.size < sizeLimit then some pattern else none
  | _ => none

end PackageResolution.Pattern

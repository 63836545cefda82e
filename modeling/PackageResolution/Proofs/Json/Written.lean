import PackageResolution.Json.Parse
import PackageResolution.Json.Print
import PackageResolution.Proofs.Version.Text

/-!
# Reading back what was written as JSON

The written form of a document is read as the document.  This holds of documents whose
strings are texts and whose numbers are whole; a string that stands for no text has no
written form, and other numbers are never written.  A character of a string is read back from
its escape whatever follows it, and a part of a document is read back whatever follows it, as
long as this does not go on with a number.

Reading takes fuel.  A part needs at most two units for each of its characters, one for the
value and one for the list of values in which it stands.
-/

namespace PackageResolution.Json

/-! ## Documents that are written -/

mutual

/-- Whether a document is read back from its written form: its strings are texts and its
numbers are whole. -/
def isWritten : Json → Bool
  | .null => true
  | .bool _ => true
  | .number value => value.isWhole && value.exponent == 0
  | .string text => text.isSome
  | .array items => itemsWritten items
  | .object members => membersWritten members

/-- Whether all items of an array are read back. -/
def itemsWritten : List Json → Bool
  | [] => true
  | item :: rest => isWritten item && itemsWritten rest

/-- Whether all members of an object are read back. -/
def membersWritten : List (Option String × Json) → Bool
  | [] => true
  | (name, value) :: rest => name.isSome && isWritten value && membersWritten rest

end

theorem Input.ofText_append (first second : String) :
    Input.ofText (first ++ second) = Input.ofText first ++ Input.ofText second := by
  rw [ofText, String.toList_append, List.map_append, ofText, ofText]

theorem Input.ofText_ofList (chars : List Char) :
    Input.ofText (String.ofList chars) = chars.map some := by
  rw [ofText, String.toList_ofList]

/-! ## Blanks -/

/-- That there is nothing but blanks. -/
def IsBlank (input : Input) : Prop :=
  ∀ c ∈ input, isSpace c = true

theorem isBlank_indentation (depth : Nat) : IsBlank (Input.ofText (indentation depth)) := by
  intro c among
  rw [indentation, Input.ofText_ofList, List.map_replicate] at among
  rw [List.eq_of_mem_replicate among]
  rfl

theorem isBlank_newline : IsBlank [some '\n'] := by
  intro c among
  rw [List.mem_singleton.mp among]
  rfl

theorem isBlank_space : IsBlank [some ' '] := by
  intro c among
  rw [List.mem_singleton.mp among]
  rfl

theorem skipSpace_append {blank : Input} (isBlank : IsBlank blank) (input : Input) :
    skipSpace (blank ++ input) = skipSpace input :=
  List.dropWhile_append_of_pos isBlank

theorem skipSpace_cons {c : Option Char} (solid : isSpace c = false) (rest : Input) :
    skipSpace (c :: rest) = c :: rest :=
  List.dropWhile_cons_of_neg (by rw [solid]; decide)

/-- A value may stand behind blanks. -/
theorem value?_append {blank : Input} (isBlank : IsBlank blank) (fuel : Nat) (input : Input) :
    value? fuel (blank ++ input) = value? fuel input := by
  cases fuel with
  | zero => rfl
  | succ fuel => rw [value?, value?, skipSpace_append isBlank]

/-! ## Strings -/

theorem hexValue?_hexDigit : ∀ value < 16, hexValue? (some (hexDigit value)) = some value := by
  decide

/-- That a piece of a string stands for a character. -/
def StringPiece.StandsFor (piece : StringPiece) (c : Char) : Prop :=
  piece = .char c ∨ piece = .unit c.toNat ∧ c.toNat < 0x20

theorem stringPieces?_letter {letter c : Char} (means : shortEscape? letter = some c)
    (rest : Input) :
    stringPieces? (some '\\' :: some letter :: rest) =
      (stringPieces? rest).map (consPiece (.char c)) := by
  rw [stringPieces?, means]
  rintro - - - - - - rfl
  exact nomatch means

theorem stringPieces?_unit {a b c d : Option Char} {unit : Nat}
    (means : codeUnit? a b c d = some unit) (rest : Input) :
    stringPieces? (some '\\' :: some 'u' :: a :: b :: c :: d :: rest) =
      (stringPieces? rest).map (consPiece (.unit unit)) := by
  rw [stringPieces?, means]

theorem stringPieces?_plain {c : Char} (unquoted : c ≠ '"') (unescaped : c ≠ '\\')
    (printable : ¬ c.toNat < 0x20) (rest : Input) :
    stringPieces? (some c :: rest) = (stringPieces? rest).map (consPiece (.char c)) := by
  rw [stringPieces?, if_neg (by simp [printable, unescaped])]
  · exact unquoted
  · exact fun _ _ _ _ _ _ same => unescaped same
  · exact fun _ _ _ same => unescaped same

theorem codeUnit?_hexDigit {value : Nat} (small : value < 0x20) :
    codeUnit? (some '0') (some '0') (some (hexDigit (value / 16)))
      (some (hexDigit (value % 16))) = some value := by
  have high := hexValue?_hexDigit (value / 16) (by omega)
  have low := hexValue?_hexDigit (value % 16) (by omega)
  have zero : hexValue? (some '0') = some 0 := rfl
  simp only [codeUnit?, zero, high, low, Option.bind_eq_bind, Option.bind_some, Option.pure_def]
  exact congrArg some (by omega)

/-- A character is read from its escape as a piece that stands for it. -/
theorem exists_piece (c : Char) : ∃ piece : StringPiece, piece.StandsFor c ∧
    ∀ rest, stringPieces? ((escaped c).map some ++ rest) =
      (stringPieces? rest).map (consPiece piece) := by
  have letter (mark : Char) (means : shortEscape? mark = some c)
      (written : escaped c = ['\\', mark]) :
      ∃ piece : StringPiece, piece.StandsFor c ∧
        ∀ rest, stringPieces? ((escaped c).map some ++ rest) =
          (stringPieces? rest).map (consPiece piece) := by
    refine ⟨.char c, .inl rfl, fun rest => ?_⟩
    rw [written]
    exact stringPieces?_letter means rest
  by_cases quote : c = '"'
  · exact letter '"' (by rw [quote]; rfl) (by rw [quote]; rfl)
  by_cases backslash : c = '\\'
  · exact letter '\\' (by rw [backslash]; rfl) (by rw [backslash]; rfl)
  by_cases backspace : c = '\x08'
  · exact letter 'b' (by rw [backspace]; rfl) (by rw [backspace]; rfl)
  by_cases formFeed : c = '\x0c'
  · exact letter 'f' (by rw [formFeed]; rfl) (by rw [formFeed]; rfl)
  by_cases newline : c = '\n'
  · exact letter 'n' (by rw [newline]; rfl) (by rw [newline]; rfl)
  by_cases carriageReturn : c = '\r'
  · exact letter 'r' (by rw [carriageReturn]; rfl) (by rw [carriageReturn]; rfl)
  by_cases tab : c = '\t'
  · exact letter 't' (by rw [tab]; rfl) (by rw [tab]; rfl)
  by_cases control : c.toNat < 0x20
  · refine ⟨.unit c.toNat, .inr ⟨rfl, control⟩, fun rest => ?_⟩
    have written : escaped c =
        ['\\', 'u', '0', '0', hexDigit (c.toNat / 16), hexDigit (c.toNat % 16)] := by
      simp only [escaped, quote, backslash, backspace, formFeed, newline, carriageReturn, tab,
        control, if_false, if_true]
    rw [written]
    exact stringPieces?_unit (codeUnit?_hexDigit control) rest
  · refine ⟨.char c, .inl rfl, fun rest => ?_⟩
    have written : escaped c = [c] := by
      simp only [escaped, quote, backslash, backspace, formFeed, newline, carriageReturn, tab,
        control, if_false]
    rw [written]
    exact stringPieces?_plain quote backslash control rest

/-- The escapes of a text are read as pieces that stand for its characters. -/
theorem exists_pieces (chars : List Char) (rest : Input) :
    ∃ pieces, List.Forall₂ StringPiece.StandsFor pieces chars ∧
      stringPieces? ((chars.flatMap escaped).map some ++ some '"' :: rest) =
        some (pieces, rest) := by
  induction chars with
  | nil => exact ⟨[], .nil, rfl⟩
  | cons c chars inductionHypothesis =>
      obtain ⟨piece, stands, reads⟩ := exists_piece c
      obtain ⟨pieces, stand, read⟩ := inductionHypothesis
      refine ⟨piece :: pieces, .cons stands stand, ?_⟩
      rw [List.flatMap_cons, List.map_append, List.append_assoc, reads, read]
      rfl

/-- A code unit that is no half of a pair makes a character on its own. -/
theorem textOfPieces?_unit {unit : Nat} (small : unit < 0x20) (rest : List StringPiece) :
    textOfPieces? (.unit unit :: rest) = (textOfPieces? rest).map (Char.ofNat unit :: ·) := by
  have notHigh : isHighSurrogate unit = false := by
    simp only [isHighSurrogate, Bool.and_eq_false_iff, decide_eq_false_iff_not]
    omega
  have notLow : isLowSurrogate unit = false := by
    simp only [isLowSurrogate, Bool.and_eq_false_iff, decide_eq_false_iff_not]
    omega
  cases rest with
  | nil => simp [textOfPieces?, notHigh, notLow]
  | cons piece rest =>
      cases piece <;> simp [textOfPieces?, notHigh, notLow]

/-- Pieces that stand for characters make a text. -/
theorem textOfPieces?_of_standsFor {pieces : List StringPiece} {chars : List Char}
    (stand : List.Forall₂ StringPiece.StandsFor pieces chars) :
    textOfPieces? pieces = some chars := by
  induction stand with
  | nil => rfl
  | @cons piece c pieces chars stands _ inductionHypothesis =>
      rcases stands with rfl | ⟨rfl, small⟩
      · rw [textOfPieces?, inductionHypothesis]
        rfl
      · rw [textOfPieces?_unit small, inductionHypothesis, Char.ofNat_toNat]
        rfl

/-- A text is read back from its written form. -/
theorem string?_escaped (text : String) (rest : Input) :
    string? ((text.toList.flatMap escaped).map some ++ some '"' :: rest) =
      some (some text, rest) := by
  obtain ⟨pieces, stand, read⟩ := exists_pieces text.toList rest
  rw [string?, read, Option.map_some, textOfPieces?_of_standsFor stand]
  simp

/-! ## Numbers -/

/-- Whether a number may go on with a character. -/
def continuesNumber : Option Char → Bool
  | some c => c.isDigit || c = '.' || c = 'e' || c = 'E'
  | none => false

theorem digitRun_append {digits : List Char} (all : ∀ c ∈ digits, c.isDigit = true)
    {rest : Input} (ends : Text.EndsRun continuesNumber rest) :
    digitRun (digits.map some ++ rest) = (digits, rest) := by
  have all' : ∀ c ∈ digits.map some, isDigit c = true := by
    intro c among
    obtain ⟨digit, member, rfl⟩ := List.mem_map.mp among
    exact all digit member
  have ends' : Text.EndsRun isDigit rest := by
    intro c first
    have ended := ends c first
    cases c with
    | none => rfl
    | some c =>
        simp only [continuesNumber, Bool.or_eq_false_iff] at ended
        exact ended.1.1.1
  rw [digitRun, Text.takeWhile_append_of_endsRun all' ends',
    Text.dropWhile_append_of_endsRun all' ends']
  simp

/-- The digits of a number are read whole. -/
theorem wholeDigits?_toDigits (n : Nat) {rest : Input}
    (ends : Text.EndsRun continuesNumber rest) :
    wholeDigits? ((Nat.toDigits 10 n).map some ++ rest) = some (Nat.toDigits 10 n, rest) := by
  obtain ⟨first, more, written⟩ :=
    List.exists_cons_of_ne_nil (Nat.toDigits_ne_nil (n := n) (b := 10))
  by_cases zero : first = '0'
  · subst zero
    rw [written, Text.eq_nil_of_toDigits written]
    rfl
  · have digits : ∀ c ∈ Nat.toDigits 10 n, c.isDigit = true :=
      fun _ among => Nat.isDigit_of_mem_toDigits (by decide) (by decide) among
    have run := digitRun_append digits ends
    rw [written, List.map_cons, List.cons_append] at run ⊢
    rw [wholeDigits?, run]
    · simp
    · rintro rest same
      exact zero (Option.some.inj (List.cons.inj same).1)

/-- A natural number is read back, whatever its sign. -/
theorem number?_toDigits (isNegative : Bool) (n : Nat) {rest : Input}
    (ends : Text.EndsRun continuesNumber rest) :
    number? isNegative ((Nat.toDigits 10 n).map some ++ rest) =
      some ({ isNegative, digits := n, exponent := 0, isWhole := true }, rest) := by
  have fraction : fractionDigits? rest = some ([], rest) := by
    rw [fractionDigits?]
    rintro after rfl
    exact nomatch ends _ rfl
  have power : exponent? rest = some (none, rest) := by
    cases rest with
    | nil => rfl
    | cons next after =>
        cases next with
        | none => rfl
        | some c =>
            have ended := ends (some c) rfl
            simp only [continuesNumber, Bool.or_eq_false_iff, decide_eq_false_iff_not] at ended
            unfold exponent?
            simp only [ended.1.2, ended.2, or_self, if_false]
  rw [number?, wholeDigits?_toDigits n ends]
  simp [fraction, power, Text.valueOf_toDigits]

theorem toList_numeral {number : JsonNumber} (whole : number.isWhole = true) :
    (numeral number).toList =
      (if number.isNegative then ['-'] else []) ++ Nat.toDigits 10 number.digits := by
  cases negative : number.isNegative <;>
    simp [numeral, whole, negative]

/-- No other part of a document begins with a digit. -/
theorem value?_digit {c : Char} (digit : c.isDigit = true) (fuel : Nat) (rest : Input) :
    value? (fuel + 1) (some c :: rest) =
      (number? false (some c :: rest)).map fun parsed => (.number parsed.1, parsed.2) := by
  have solid : isSpace (some c) = false := by
    cases space : isSpace (some c) with
    | false => rfl
    | true =>
        simp only [isSpace, Bool.or_eq_true, decide_eq_true_eq] at space
        rcases space with ((rfl | rfl) | rfl) | rfl <;> exact nomatch digit
  have other {mark : Char} {after : Input} (plain : mark.isDigit = false)
      (same : some c :: rest = some mark :: after) : False := by
    rw [Option.some.inj (List.cons.inj same).1, plain] at digit
    exact nomatch digit
  rw [value?, skipSpace_cons solid]
  split
  case h_8 => rfl
  all_goals
    rename_i same
    exact (other (by decide) same).elim

/-- A whole number is read back. -/
theorem value?_numeral {number : JsonNumber} (whole : number.isWhole = true)
    (unscaled : number.exponent = 0) (fuel : Nat) {rest : Input}
    (ends : Text.EndsRun continuesNumber rest) :
    value? (fuel + 1) (Input.ofText (numeral number) ++ rest) = some (.number number, rest) := by
  obtain ⟨isNegative, digits, exponent, isWhole⟩ := number
  obtain rfl : exponent = 0 := unscaled
  obtain rfl : isWhole = true := whole
  have read := number?_toDigits isNegative digits ends
  rw [Input.ofText, toList_numeral rfl]
  cases isNegative with
  | true =>
      change value? (fuel + 1)
        (some '-' :: ((Nat.toDigits 10 digits).map some ++ rest)) = _
      rw [value?]
      change (number? true _).map _ = _
      rw [read]
      rfl
  | false =>
      obtain ⟨first, more, written⟩ :=
        List.exists_cons_of_ne_nil (Nat.toDigits_ne_nil (n := digits) (b := 10))
      have digit : first.isDigit = true :=
        Nat.isDigit_of_mem_toDigits (n := digits) (b := 10) (by decide) (by decide)
          (written ▸ List.mem_cons_self)
      change value? (fuel + 1) ((Nat.toDigits 10 digits).map some ++ rest) = _
      rw [written] at read ⊢
      rw [List.map_cons, List.cons_append] at read ⊢
      rw [value?_digit digit, read]
      rfl

/-! ## Words -/

theorem word?_append (word : List Char) (rest : Input) :
    word? word (word.map some ++ rest) = some rest := by
  have same : (word.map some).isPrefixOf (word.map some ++ rest) = true := by
    rw [List.isPrefixOf_iff_prefix]
    exact List.prefix_append _ _
  rw [word?, if_pos same, List.drop_append_of_le_length (by simp)]
  simp

theorem value?_null (fuel : Nat) (rest : Input) :
    value? (fuel + 1) (Input.ofText "null" ++ rest) = some (.null, rest) := by
  change value? (fuel + 1) (some 'n' :: (['u', 'l', 'l'].map some ++ rest)) = _
  rw [value?, skipSpace_cons rfl]
  simp only [word?_append, Option.map_some]

theorem value?_true (fuel : Nat) (rest : Input) :
    value? (fuel + 1) (Input.ofText "true" ++ rest) = some (.bool true, rest) := by
  change value? (fuel + 1) (some 't' :: (['r', 'u', 'e'].map some ++ rest)) = _
  rw [value?, skipSpace_cons rfl]
  simp only [word?_append, Option.map_some]

theorem value?_false (fuel : Nat) (rest : Input) :
    value? (fuel + 1) (Input.ofText "false" ++ rest) = some (.bool false, rest) := by
  change value? (fuel + 1) (some 'f' :: (['a', 'l', 's', 'e'].map some ++ rest)) = _
  rw [value?, skipSpace_cons rfl]
  simp only [word?_append, Option.map_some]

/-! ## Arrays and objects -/

section Brackets

variable {fuel : Nat} {input after next rest : Input}

/-- No value begins with a bracket that closes an array. -/
theorem value?_closing (closes : skipSpace input = some ']' :: rest) (fuel : Nat) :
    value? fuel input = none := by
  cases fuel with
  | zero => rfl
  | succ fuel =>
      rw [value?, closes]
      rfl

theorem items?_append {blank : Input} (isBlank : IsBlank blank) (fuel : Nat) (input : Input) :
    items? fuel (blank ++ input) = items? fuel input := by
  cases fuel with
  | zero => rfl
  | succ fuel => rw [items?, items?, value?_append isBlank]

theorem members?_append {blank : Input} (isBlank : IsBlank blank) (fuel : Nat) (input : Input) :
    members? fuel (blank ++ input) = members? fuel input := by
  cases fuel with
  | zero => rfl
  | succ fuel => rw [members?, members?, skipSpace_append isBlank]

theorem items?_skipSpace (fuel : Nat) (input : Input) :
    items? fuel (skipSpace input) = items? fuel input := by
  have idle : skipSpace (skipSpace input) = skipSpace input := List.dropWhile_idempotent _ _
  cases fuel with
  | zero => rfl
  | succ fuel =>
      cases fuel with
      | zero => rfl
      | succ fuel => simp only [items?, value?, idle]

theorem members?_skipSpace (fuel : Nat) (input : Input) :
    members? fuel (skipSpace input) = members? fuel input := by
  have idle : skipSpace (skipSpace input) = skipSpace input := List.dropWhile_idempotent _ _
  cases fuel with
  | zero => rfl
  | succ fuel => rw [members?, members?, idle]

theorem items?_closing (closes : skipSpace input = some ']' :: rest) (fuel : Nat) :
    items? fuel input = none := by
  cases fuel with
  | zero => rfl
  | succ fuel => rw [items?, value?_closing closes]

theorem members?_closing (closes : skipSpace input = some '}' :: rest) (fuel : Nat) :
    members? fuel input = none := by
  cases fuel with
  | zero => rfl
  | succ fuel =>
      rw [members?, closes]
      rfl

/-- An array is read from its items. -/
theorem value?_array {items : List Json} (read : items? fuel input = some (items, rest)) :
    value? (fuel + 1) (some '[' :: input) = some (.array items, rest) := by
  rw [value?, skipSpace_cons rfl]
  simp only
  split
  · rename_i closes
    rw [items?_closing closes] at read
    exact nomatch read
  · rw [items?_skipSpace, read]
    rfl

/-- An object is read from its members. -/
theorem value?_object {members : List (Option String × Json)}
    (read : members? fuel input = some (members, rest)) :
    value? (fuel + 1) (some '{' :: input) = some (.object members, rest) := by
  rw [value?, skipSpace_cons rfl]
  simp only
  split
  · rename_i closes
    rw [members?_closing closes] at read
    exact nomatch read
  · rw [members?_skipSpace, read]
    rfl

theorem value?_array_nil (depth fuel : Nat) (rest : Input) :
    value? (fuel + 1) (Input.ofText (render depth (.array [])) ++ rest) =
      some (.array [], rest) := by
  rw [render, renderItems, bracketed]
  change value? (fuel + 1) (some '[' :: some ']' :: rest) = _
  rw [value?, skipSpace_cons rfl]
  simp only [skipSpace_cons (c := some ']') rfl rest]

theorem value?_object_nil (depth fuel : Nat) (rest : Input) :
    value? (fuel + 1) (Input.ofText (render depth (.object [])) ++ rest) =
      some (.object [], rest) := by
  rw [render, renderMembers, bracketed]
  change value? (fuel + 1) (some '{' :: some '}' :: rest) = _
  rw [value?, skipSpace_cons rfl]
  simp only [skipSpace_cons (c := some '}') rfl rest]

theorem items?_last {item : Json} (read : value? fuel input = some (item, after))
    (closes : skipSpace after = some ']' :: rest) :
    items? (fuel + 1) input = some ([item], rest) := by
  rw [items?, read]
  simp only [closes]

theorem items?_cons {item : Json} {items : List Json}
    (read : value? fuel input = some (item, after)) (goesOn : skipSpace after = some ',' :: next)
    (more : items? fuel next = some (items, rest)) :
    items? (fuel + 1) input = some (item :: items, rest) := by
  rw [items?, read]
  simp only [goesOn, more, Option.map_some]

theorem ofText_quoted (text : String) (rest : Input) :
    Input.ofText (quoted text) ++ rest =
      some '"' :: ((text.toList.flatMap escaped).map some ++ some '"' :: rest) := by
  simp [quoted, Input.ofText]

/-- A string is read back. -/
theorem value?_quoted (fuel : Nat) (text : String) (rest : Input) :
    value? (fuel + 1) (Input.ofText (quoted text) ++ rest) =
      some (.string (some text), rest) := by
  rw [ofText_quoted, value?]
  change (string? _).map _ = _
  rw [string?_escaped]
  rfl

/-- The name of a member and the colon behind it, in front of its value. -/
def named (name : String) (input : Input) : Input :=
  Input.ofText (quoted name) ++ some ':' :: input

theorem members?_last {name : String} {value : Json}
    (read : value? fuel input = some (value, after))
    (closes : skipSpace after = some '}' :: rest) :
    members? (fuel + 1) (named name input) = some ([(some name, value)], rest) := by
  have colon := skipSpace_cons (c := some ':') rfl input
  rw [named, ofText_quoted, members?, skipSpace_cons rfl]
  simp only [string?_escaped, colon, read, closes]

theorem members?_cons {name : String} {value : Json} {members : List (Option String × Json)}
    (read : value? fuel input = some (value, after))
    (goesOn : skipSpace after = some ',' :: next)
    (more : members? fuel next = some (members, rest)) :
    members? (fuel + 1) (named name input) = some ((some name, value) :: members, rest) := by
  have colon := skipSpace_cons (c := some ':') rfl input
  rw [named, ofText_quoted, members?, skipSpace_cons rfl]
  simp only [string?_escaped, colon, read, goesOn, more, Option.map_some]

end Brackets

/-! ## Lines -/

/-- Lines that stand at some depth, with commas between them. -/
def lines (depth : Nat) (texts : List String) : String :=
  ",\n".intercalate (texts.map (indentation depth ++ ·))

theorem lines_single (depth : Nat) (text : String) :
    lines depth [text] = indentation depth ++ text := by
  rw [lines, List.map_singleton, String.intercalate_singleton]

theorem lines_cons (depth : Nat) (first second : String) (more : List String) :
    lines depth (first :: second :: more) =
      indentation depth ++ first ++ ",\n" ++ lines depth (second :: more) := by
  rw [lines, List.map_cons, List.map_cons, String.intercalate_cons_cons, lines, List.map_cons]

theorem bracketed_cons (opening closing : String) (depth : Nat) (text : String)
    (more : List String) :
    bracketed opening closing depth (text :: more) =
      opening ++ "\n" ++ lines (depth + 1) (text :: more) ++ "\n" ++ indentation depth ++
        closing :=
  rfl

/-- Lines one after the other, as input. -/
theorem ofText_lines_cons (depth : Nat) (first second : String) (more : List String)
    (after : Input) :
    Input.ofText (lines depth (first :: second :: more)) ++ after =
      Input.ofText (indentation depth) ++ (Input.ofText first ++
        some ',' :: ([some '\n'] ++ (Input.ofText (lines depth (second :: more)) ++ after))) := by
  have comma : Input.ofText ",\n" = [some ',', some '\n'] := rfl
  simp only [lines_cons, Input.ofText_append, comma, List.append_assoc, List.cons_append,
    List.nil_append]

theorem length_lines_cons (depth : Nat) (first second : String) (more : List String) :
    first.length + (lines depth (second :: more)).length + 2 ≤
      (lines depth (first :: second :: more)).length := by
  have comma : (",\n" : String).length = 2 := rfl
  simp only [lines_cons, String.length_append, comma]
  omega

/-- Lines between brackets, as input. -/
theorem ofText_bracketed {opening closing : String} {first last : Char}
    (opens : Input.ofText opening = [some first]) (closes : Input.ofText closing = [some last])
    (depth : Nat) (text : String) (more : List String) (rest : Input) :
    Input.ofText (bracketed opening closing depth (text :: more)) ++ rest =
      some first :: ([some '\n'] ++ (Input.ofText (lines (depth + 1) (text :: more)) ++
        some '\n' :: (Input.ofText (indentation depth) ++ some last :: rest))) := by
  have newline : Input.ofText "\n" = [some '\n'] := rfl
  simp only [bracketed_cons, Input.ofText_append, opens, closes, newline,
    List.append_assoc, List.cons_append, List.nil_append]

theorem length_bracketed (opening closing : String) (depth : Nat) (text : String)
    (more : List String) : opening.length + (lines (depth + 1) (text :: more)).length + 1 ≤
      (bracketed opening closing depth (text :: more)).length := by
  have newline : ("\n" : String).length = 1 := rfl
  simp only [bracketed_cons, String.length_append, newline]
  omega

/-! ## Documents -/

/-- What closes a bracket at some depth stands behind blanks. -/
theorem skipSpace_closing (depth : Nat) {mark : Char} (solid : isSpace (some mark) = false)
    (rest : Input) :
    skipSpace (some '\n' :: (Input.ofText (indentation depth) ++ some mark :: rest)) =
      some mark :: rest := by
  rw [← List.singleton_append, skipSpace_append isBlank_newline,
    skipSpace_append (isBlank_indentation depth), skipSpace_cons solid]

/-- A member, as input. -/
theorem ofText_member (name text : String) (rest : Input) :
    Input.ofText (quoted name ++ ": " ++ text) ++ rest =
      named name ([some ' '] ++ (Input.ofText text ++ rest)) := by
  have colon : Input.ofText ": " = [some ':', some ' '] := rfl
  simp only [named, Input.ofText_append, colon, List.append_assoc, List.cons_append,
    List.nil_append]

theorem endsRun_newline (rest : Input) :
    Text.EndsRun continuesNumber (some '\n' :: rest) :=
  Text.endsRun_cons rfl rest

mutual

/-- A value is read back from its written form, whatever follows. -/
theorem value?_render (json : Json) (written : json.isWritten = true) (depth fuel : Nat)
    (rest : Input) (enough : 2 * (render depth json).length < fuel)
    (ends : Text.EndsRun continuesNumber rest) :
    value? fuel (Input.ofText (render depth json) ++ rest) = some (json, rest) := by
  obtain ⟨fuel, rfl⟩ : ∃ less, fuel = less + 1 := ⟨fuel - 1, by omega⟩
  cases json with
  | null => exact value?_null fuel rest
  | bool value =>
      cases value with
      | true => exact value?_true fuel rest
      | false => exact value?_false fuel rest
  | number value =>
      rw [isWritten, Bool.and_eq_true, beq_iff_eq] at written
      exact value?_numeral written.1 written.2 fuel ends
  | string content =>
      obtain ⟨content, rfl⟩ := Option.isSome_iff_exists.mp written
      exact value?_quoted fuel content rest
  | array items =>
      cases items with
      | nil => exact value?_array_nil depth fuel rest
      | cons item items =>
          rw [render, renderItems] at enough ⊢
          have shorter := length_bracketed "[" "]" depth (render (depth + 1) item)
            (renderItems (depth + 1) items)
          rw [ofText_bracketed rfl rfl]
          apply value?_array
          rw [items?_append isBlank_newline]
          exact items?_render (item :: items) (List.cons_ne_nil _ _) written (depth + 1) fuel
            (by rw [renderItems]; omega) (skipSpace_closing depth rfl rest) (endsRun_newline _)
  | object members =>
      cases members with
      | nil => exact value?_object_nil depth fuel rest
      | cons member members =>
          obtain ⟨name, value⟩ := member
          rw [render, renderMembers] at enough ⊢
          have shorter := length_bracketed "\x7b" "\x7d" depth
            (quoted (name.getD "") ++ ": " ++ render (depth + 1) value)
            (renderMembers (depth + 1) members)
          rw [ofText_bracketed rfl rfl]
          apply value?_object
          rw [members?_append isBlank_newline]
          exact members?_render ((name, value) :: members) (List.cons_ne_nil _ _) written
            (depth + 1) fuel (by rw [renderMembers]; omega) (skipSpace_closing depth rfl rest)
            (endsRun_newline _)

/-- The items of an array are read back from their lines. -/
theorem items?_render (items : List Json) (filled : items ≠ [])
    (written : itemsWritten items = true) (depth fuel : Nat) {after rest : Input}
    (enough : 2 * (lines depth (renderItems depth items)).length + 1 < fuel)
    (closes : skipSpace after = some ']' :: rest)
    (ends : Text.EndsRun continuesNumber after) :
    items? fuel (Input.ofText (lines depth (renderItems depth items)) ++ after) =
      some (items, rest) := by
  obtain ⟨fuel, rfl⟩ : ∃ less, fuel = less + 1 := ⟨fuel - 1, by omega⟩
  match items with
  | [] => exact absurd rfl filled
  | [item] =>
      rw [itemsWritten, itemsWritten, Bool.and_true] at written
      rw [renderItems, renderItems, lines_single] at enough ⊢
      rw [String.length_append] at enough
      rw [Input.ofText_append, List.append_assoc]
      refine items?_last ?_ closes
      rw [value?_append (isBlank_indentation depth)]
      exact value?_render item written depth fuel after (by omega) ends
  | item :: second :: more =>
      rw [itemsWritten, Bool.and_eq_true] at written
      have shorter := length_lines_cons depth (render depth item) (render depth second)
        (renderItems depth more)
      rw [renderItems, renderItems] at enough ⊢
      rw [ofText_lines_cons]
      have first (next : Input) : value? fuel (Input.ofText (indentation depth) ++
          (Input.ofText (render depth item) ++ some ',' :: next)) =
            some (item, some ',' :: next) := by
        rw [value?_append (isBlank_indentation depth)]
        exact value?_render item written.1 depth fuel _ (by omega) (Text.endsRun_cons rfl _)
      apply items?_cons (first _) (skipSpace_cons rfl _)
      rw [items?_append isBlank_newline]
      exact items?_render (second :: more) (List.cons_ne_nil _ _) written.2 depth fuel
        (by rw [renderItems]; omega) closes ends

/-- The members of an object are read back from their lines. -/
theorem members?_render (members : List (Option String × Json)) (filled : members ≠ [])
    (written : membersWritten members = true) (depth fuel : Nat) {after rest : Input}
    (enough : 2 * (lines depth (renderMembers depth members)).length + 1 < fuel)
    (closes : skipSpace after = some '}' :: rest)
    (ends : Text.EndsRun continuesNumber after) :
    members? fuel (Input.ofText (lines depth (renderMembers depth members)) ++ after) =
      some (members, rest) := by
  obtain ⟨fuel, rfl⟩ : ∃ less, fuel = less + 1 := ⟨fuel - 1, by omega⟩
  match members with
  | [] => exact absurd rfl filled
  | [(name, value)] =>
      rw [membersWritten, membersWritten, Bool.and_true, Bool.and_eq_true] at written
      obtain ⟨name, rfl⟩ := Option.isSome_iff_exists.mp written.1
      rw [renderMembers, renderMembers, lines_single] at enough ⊢
      simp only [String.length_append] at enough
      rw [Input.ofText_append, List.append_assoc, members?_append (isBlank_indentation depth),
        Option.getD_some, ofText_member]
      apply members?_last _ closes
      rw [value?_append isBlank_space]
      exact value?_render value written.2 depth fuel after (by omega) ends
  | (name, value) :: (other, second) :: more =>
      rw [membersWritten, Bool.and_eq_true, Bool.and_eq_true] at written
      obtain ⟨⟨isNamed, written⟩, later⟩ := written
      obtain ⟨name, rfl⟩ := Option.isSome_iff_exists.mp isNamed
      have shorter := length_lines_cons depth (quoted name ++ ": " ++ render depth value)
        (quoted (other.getD "") ++ ": " ++ render depth second) (renderMembers depth more)
      simp only [String.length_append] at shorter
      rw [renderMembers, renderMembers, Option.getD_some] at enough ⊢
      have first (next : Input) : value? fuel ([some ' '] ++
          (Input.ofText (render depth value) ++ some ',' :: next)) =
            some (value, some ',' :: next) := by
        rw [value?_append isBlank_space]
        exact value?_render value written depth fuel _ (by omega) (Text.endsRun_cons rfl _)
      rw [ofText_lines_cons, members?_append (isBlank_indentation depth), ofText_member]
      apply members?_cons (first _) (skipSpace_cons rfl _)
      rw [members?_append isBlank_newline]
      exact members?_render ((other, second) :: more) (List.cons_ne_nil _ _) later depth fuel
        (by rw [renderMembers]; omega) closes ends

end

/-- A document is read back from its written form. -/
theorem parse?_text {json : Json} (written : json.isWritten = true) :
    parse? (Input.ofText json.text) = some json := by
  have read : value? (2 * (Input.ofText json.text).length + 1) (Input.ofText json.text) =
      some (json, []) := by
    have length : (Input.ofText json.text).length = (render 0 json).length := by
      rw [Input.ofText, List.length_map, String.length_toList, text]
    have whole := value?_render json written 0 (2 * (Input.ofText json.text).length + 1) []
      (by omega) (Text.endsRun_nil _)
    rwa [List.append_nil] at whole
  rw [parse?, read]
  rfl

end PackageResolution.Json

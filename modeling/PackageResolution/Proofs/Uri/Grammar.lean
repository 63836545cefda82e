import PackageResolution.Proofs.Uri.Written

/-!
# The grammar of identifiers

Which characters the parts of an identifier may hold and how they may follow each other is said
here by the characters alone, without the cuts by which a text is read.  Reading accepts exactly
the texts of identifiers that follow this grammar, and reading and writing undo each other.
-/

namespace PackageResolution.Uri

/-- That a text is an ASCII letter followed by letters, digits, `+`, `-` and `.`. -/
def IsSchemeText (text : String) : Prop :=
  ∃ first rest, text.toList = first :: rest ∧ first.isAlpha = true ∧
    ∀ c ∈ rest, c.isAlphanum = true ∨ c ∈ ['+', '-', '.']

/-- That the parts of an identifier are such that its text shows where each of them ends. -/
structure IsGrammatical (uri : Uri) : Prop where
  /-- No part holds a blank or a control character. -/
  legal : ∀ c ∈ uri.text.toList, Text.isBlank c = false ∧ Text.isControl c = false
  scheme : ∀ scheme, uri.scheme = some scheme → IsSchemeText scheme
  authority : ∀ authority, uri.authority = some authority →
    ∀ c ∈ authority.toList, c ∉ ['/', '?', '#']
  path : ∀ c ∈ uri.path.toList, c ∉ ['?', '#']
  query : ∀ query, uri.query = some query → '#' ∉ query.toList
  /-- After an authority the path is empty or begins with a slash. -/
  rooted : uri.authority ≠ none → uri.path = "" ∨ ∃ rest, uri.path = "/" ++ rest
  /-- Without an authority the path does not begin with two slashes. -/
  single : uri.authority = none → ∀ rest, uri.path ≠ "//" ++ rest
  /-- What stands before the first colon of a path at the start of the text is no scheme, and it
  holds a slash or begins with a dot. -/
  colon : uri.scheme = none → uri.authority = none →
    ∀ before after, uri.path = before ++ ":" ++ after → ':' ∉ before.toList →
      ¬ IsSchemeText before ∧ ('/' ∈ before.toList ∨ ∃ rest, before = "." ++ rest)
  /-- Something follows a scheme. -/
  body : uri.scheme ≠ none →
    uri.authority ≠ none ∨ uri.path ≠ "" ∨ uri.query ≠ none ∨ uri.fragment ≠ none

/-! ## The cuts of the reader, by the characters -/

theorem isScheme_iff {text : String} : isScheme text = true ↔ IsSchemeText text := by
  unfold isScheme IsSchemeText
  split
  · rename_i empty
    simp [empty]
  · rename_i first rest chars
    simp [chars, or_assoc]

theorem beginsWith_iff {mark : Char} {text : String} :
    Text.beginsWith mark text = true ↔ ∃ rest, text = String.singleton mark ++ rest := by
  constructor
  · exact Text.exists_of_beginsWith
  · rintro ⟨rest, rfl⟩
    simp [Text.beginsWith]

theorem startsWith_iff {start text : String} :
    Text.startsWith start text = true ↔ ∃ rest, text = start ++ rest := by
  constructor
  · intro begun
    exact ⟨_, Text.dropStart?_eq_some_iff.mp (if_pos begun)⟩
  · rintro ⟨rest, rfl⟩
    have dropped := Text.dropStart?_append start rest
    by_contra missing
    rw [Text.dropStart?, if_neg missing] at dropped
    cases dropped

theorem cut?_colon_iff {text before after : String} :
    Text.cut? ':' text = some (before, after) ↔
      text = before ++ ":" ++ after ∧ ':' ∉ before.toList := by
  rw [Text.cut?_eq_some_iff, and_congr_left_iff]
  intro _
  rw [← String.toList_inj]
  simp

theorem disownsColon_iff {before : String} :
    disownsColon before = true ↔
      '/' ∈ before.toList ∨ ∃ rest, before = "." ++ rest := by
  have dot : String.singleton '.' = "." := rfl
  rw [disownsColon, Bool.or_eq_true, Text.has, List.contains_iff_mem, beginsWith_iff, dot]

/-! ## The grammar -/

variable {uri : Uri}

theorem legal_iff : (∀ c ∈ uri.text.toList, Text.isBlank c = false ∧ Text.isControl c = false) ↔
    IsLegal uri.text := by
  simp only [IsLegal, isIllegal, Bool.or_eq_false_iff]

/-- What an identifier must be like to be told from its text is what the grammar says. -/
theorem isGrammatical_iff : uri.IsGrammatical ↔ uri.IsWritten := by
  have slash : String.singleton '/' = "/" := rfl
  constructor
  · intro grammatical
    refine ⟨⟨legal_iff.mp grammatical.legal, ?_, ?_, ?_, ?_, grammatical.query, ?_, ?_⟩, ?_⟩
    · exact fun scheme written => isScheme_iff.mpr (grammatical.scheme scheme written)
    · intro authority written
      have plain := grammatical.authority authority written
      exact ⟨fun member => plain _ member (by simp), fun member => plain _ member (by simp),
        fun member => plain _ member (by simp)⟩
    · intro placed
      rw [beginsWith_iff, slash]
      exact grammatical.rooted (Option.isSome_iff_ne_none.mp placed)
    · exact ⟨fun member => grammatical.path _ member (by simp),
        fun member => grammatical.path _ member (by simp)⟩
    · intro named absent unasked unmarked
      rcases grammatical.body (Option.isSome_iff_ne_none.mp named) with
        placed | filled | asked | marked
      · exact absurd absent placed
      · exact filled
      · exact absurd unasked asked
      · exact absurd unmarked marked
    · intro unnamed absent before after cut
      obtain ⟨whole, first⟩ := cut?_colon_iff.mp cut
      exact disownsColon_iff.mpr (grammatical.colon unnamed absent before after whole first).2
    · rintro ⟨absent, begun⟩
      obtain ⟨rest, whole⟩ := startsWith_iff.mp begun
      exact grammatical.single absent rest whole
  · intro written
    refine ⟨legal_iff.mpr written.legal, ?_, ?_, ?_, written.query, ?_, ?_, ?_, ?_⟩
    · exact fun scheme present => isScheme_iff.mp (written.scheme scheme present)
    · intro authority present c member
      obtain ⟨slashless, unasked, unmarked⟩ := written.authority authority present
      simp only [List.mem_cons, List.not_mem_nil, or_false]
      rintro (rfl | rfl | rfl)
      · exact slashless member
      · exact unasked member
      · exact unmarked member
    · intro c member
      simp only [List.mem_cons, List.not_mem_nil, or_false]
      rintro (rfl | rfl)
      · exact written.path.1 member
      · exact written.path.2 member
    · intro placed
      have rooted := written.rooted (Option.isSome_iff_ne_none.mpr placed)
      rwa [beginsWith_iff, slash] at rooted
    · exact fun absent rest whole => written.single ⟨absent, startsWith_iff.mpr ⟨rest, whole⟩⟩
    · intro unnamed absent before after whole first
      have disowned := written.colon unnamed absent before after
        (cut?_colon_iff.mpr ⟨whole, first⟩)
      refine ⟨fun scheme => ?_, disownsColon_iff.mp disowned⟩
      have other := isScheme_eq_false_of_disownsColon disowned
      rw [isScheme_iff.mpr scheme] at other
      exact nomatch other
    · intro named
      by_contra bare
      simp only [not_or, not_not] at bare
      exact written.body (Option.isSome_iff_ne_none.mpr named) bare.1 bare.2.2.1 bare.2.2.2
        bare.2.1

/-- A text is read as an identifier exactly if it is the text of one that follows the grammar.
What is read has the text that it is read from, and what follows the grammar is read from its
text, so that no two such identifiers have one text. -/
theorem reading_inverts_writing :
    (∀ text, (∃ uri, parse text = .ok uri) ↔ ∃ uri : Uri, uri.IsGrammatical ∧ uri.text = text) ∧
    (∀ text uri, parse text = .ok uri → uri.IsGrammatical ∧ uri.text = text) ∧
    (∀ uri : Uri, uri.IsGrammatical → parse uri.text = .ok uri) ∧
    ∀ first second : Uri, first.IsGrammatical → second.IsGrammatical →
      first.text = second.text → first = second := by
  have writes (text : String) (uri : Uri) (read : parse text = .ok uri) :
      uri.IsGrammatical ∧ uri.text = text := by
    obtain ⟨written, same⟩ := isWritten_of_parse read
    exact ⟨isGrammatical_iff.mpr written, same⟩
  have reads (uri : Uri) (grammatical : uri.IsGrammatical) : parse uri.text = .ok uri :=
    parse_text (isGrammatical_iff.mp grammatical)
  refine ⟨fun text => ⟨?_, ?_⟩, writes, reads, ?_⟩
  · rintro ⟨uri, read⟩
    exact ⟨uri, writes text uri read⟩
  · rintro ⟨uri, grammatical, rfl⟩
    exact ⟨uri, reads uri grammatical⟩
  · intro first second grammatical other same
    have read := reads first grammatical
    rw [same, reads second other] at read
    exact (Except.ok.inj read).symm

/-- With one slash and with three a file is read as two identifiers, an absent authority being
another than an empty one. -/
example : parse "file:/nest" = .ok ⟨some "file", none, "/nest", none, none⟩ ∧
    parse "file:///nest" = .ok ⟨some "file", some "", "/nest", none, none⟩ := by
  decide +kernel

end PackageResolution.Uri

import PackageResolution.Proofs.Text.Cut
import PackageResolution.Uri.Parse

/-!
# Identifiers and their texts

A text is cut at the first `#`, then at the first `?`, then at the first `:`, and last between
two slashes and the next one.  Each cut finds the mark that was written, as long as no part holds
a mark that ends it and nothing before it is read as a scheme or as an authority.  So reading
accepts exactly the texts of such identifiers, and gives back the identifier.
-/

namespace PackageResolution.Uri

/-! ## The grammar -/

/-- That no character of a text is one that an identifier may not contain. -/
def IsLegal (text : String) : Prop :=
  ∀ c ∈ text.toList, isIllegal c = false

instance (text : String) : Decidable (IsLegal text) :=
  List.decidableBAll (fun c => isIllegal c = false) text.toList

/-- That a path without an authority before it begins like one. -/
def FeignsAuthority (uri : Uri) : Prop :=
  uri.authority = none ∧ Text.startsWith "//" uri.path = true

instance (uri : Uri) : Decidable uri.FeignsAuthority :=
  inferInstanceAs (Decidable (_ ∧ _))

/-- That no part of an identifier holds a mark that ends it. -/
structure HasPlainParts (uri : Uri) : Prop where
  legal : IsLegal uri.text
  scheme : ∀ scheme ∈ uri.scheme, isScheme scheme = true
  authority : ∀ authority ∈ uri.authority,
    '/' ∉ authority.toList ∧ '?' ∉ authority.toList ∧ '#' ∉ authority.toList
  /-- After an authority the path is empty or goes on with a slash. -/
  rooted : uri.authority.isSome = true → uri.path = "" ∨ Text.beginsWith '/' uri.path = true
  path : '?' ∉ uri.path.toList ∧ '#' ∉ uri.path.toList
  query : ∀ query ∈ uri.query, '#' ∉ query.toList
  /-- Something follows a scheme. -/
  body : uri.scheme.isSome = true → uri.authority = none → uri.query = none →
    uri.fragment = none → uri.path ≠ ""
  /-- A colon in a path at the start of the text ends no scheme. -/
  colon : uri.scheme = none → uri.authority = none → ∀ before after,
    Text.cut? ':' uri.path = some (before, after) → disownsColon before = true

/-- That an identifier can be told from its text. -/
structure IsWritten (uri : Uri) : Prop extends HasPlainParts uri where
  single : ¬ uri.FeignsAuthority

/-! ## Cutting off the parts after a mark -/

theorem marked_some (mark part : String) : marked mark (some part) = mark ++ part := rfl

theorem marked_none (mark : String) : marked mark none = "" := rfl

theorem beforeMark_eq_iff {mark : Char} {text before : String} {part : Option String} :
    beforeMark mark text = (before, part) ↔
      text = before ++ marked (String.singleton mark) part ∧ mark ∉ before.toList := by
  unfold beforeMark
  cases cut : Text.cut? mark text with
  | none =>
      have unmarked := Text.cut?_eq_none_iff.mp cut
      constructor
      · intro same
        obtain ⟨rfl, rfl⟩ := Prod.mk.inj same
        exact ⟨by rw [marked_none, String.append_empty], unmarked⟩
      · rintro ⟨rfl, -⟩
        cases part with
        | none => rw [marked_none, String.append_empty]
        | some after => exact absurd (by simp [marked_some]) unmarked
  | some parts =>
      obtain ⟨first, after⟩ := parts
      obtain ⟨whole, clear⟩ := Text.cut?_eq_some_iff.mp cut
      constructor
      · intro same
        obtain ⟨rfl, rfl⟩ := Prod.mk.inj same
        exact ⟨String.toList_injective (by simpa [marked_some] using whole), clear⟩
      · rintro ⟨rfl, unmarked⟩
        cases part with
        | none =>
            refine absurd ?_ unmarked
            rw [marked_none, String.append_empty] at whole
            rw [whole]
            exact List.mem_append_right _ List.mem_cons_self
        | some other =>
            have again : Text.cut? mark (before ++ marked (String.singleton mark) (some other)) =
                some (before, other) :=
              Text.cut?_eq_some_iff.mpr ⟨by simp [marked_some], unmarked⟩
            obtain ⟨rfl, rfl⟩ := Prod.mk.inj (Option.some.inj (cut.symm.trans again))
            rfl

/-! ## The scheme -/

/-- A mark that is no character of a scheme. -/
theorem not_mem_of_isScheme {scheme : String} (valid : isScheme scheme = true) {mark : Char}
    (outside : (mark.isAlphanum || mark == '+' || mark == '-' || mark == '.') = false) :
    mark ∉ scheme.toList := by
  intro member
  unfold isScheme at valid
  split at valid
  · cases valid
  · rename_i first rest chars
    rw [chars, List.mem_cons] at member
    rw [Bool.and_eq_true, List.all_eq_true] at valid
    rcases member with rfl | member
    · simp [Char.isAlphanum, valid.1] at outside
    · rw [valid.2 mark member] at outside
      cases outside

theorem isScheme_eq_false_of_disownsColon {before : String}
    (disowned : disownsColon before = true) : isScheme before = false := by
  by_contra valid
  rw [Bool.not_eq_false] at valid
  rw [disownsColon, Bool.or_eq_true, Text.has, List.contains_iff_mem] at disowned
  rcases disowned with slashed | dotted
  · exact not_mem_of_isScheme valid (by decide) slashed
  · obtain ⟨rest, rfl⟩ := Text.exists_of_beginsWith dotted
    simp [isScheme] at valid

theorem splitScheme_some {scheme body : String} (whole : String) {bare : Bool}
    (valid : isScheme scheme = true) (filled : ¬ (body = "" ∧ bare = true)) :
    splitScheme whole bare (scheme ++ ":" ++ body) = .ok (some scheme, body) := by
  have cut : Text.cut? ':' (scheme ++ ":" ++ body) = some (scheme, body) :=
    Text.cut?_eq_some_iff.mpr ⟨by simp, not_mem_of_isScheme valid (by decide)⟩
  rw [splitScheme, cut]
  simp only [valid, if_true]
  rw [if_neg (by simpa using filled)]

theorem splitScheme_none {body : String} (whole : String) (bare : Bool)
    (disowned : ∀ before after, Text.cut? ':' body = some (before, after) →
      disownsColon before = true) :
    splitScheme whole bare body = .ok (none, body) := by
  unfold splitScheme
  cases cut : Text.cut? ':' body with
  | none => rfl
  | some parts =>
      have ends := disowned parts.1 parts.2 cut
      simp only [isScheme_eq_false_of_disownsColon ends, ends, Bool.false_eq_true, if_false,
        if_true]

/-- What is read as a scheme, and what is read as none. -/
theorem splitScheme_eq_ok {whole text body : String} {bare : Bool} {scheme : Option String}
    (cut : splitScheme whole bare text = .ok (scheme, body)) :
    text = closed ":" scheme ++ body ∧ (∀ name ∈ scheme, isScheme name = true) ∧
      (scheme.isSome = true → ¬ (body = "" ∧ bare = true)) ∧
      (scheme = none → ∀ before after, Text.cut? ':' body = some (before, after) →
        disownsColon before = true) := by
  unfold splitScheme at cut
  cases found : Text.cut? ':' text with
  | none =>
      rw [found] at cut
      obtain ⟨rfl, rfl⟩ := Prod.mk.inj (Except.ok.inj cut)
      refine ⟨by rw [closed, String.empty_append], by simp, by simp, ?_⟩
      intro _ before after again
      cases found.symm.trans again
  | some parts =>
      obtain ⟨before, after⟩ := parts
      rw [found] at cut
      simp only at cut
      split at cut
      · rename_i valid
        split at cut
        · cases cut
        · rename_i filled
          obtain ⟨rfl, rfl⟩ := Prod.mk.inj (Except.ok.inj cut)
          refine ⟨?_, by simpa using valid, by simpa using filled, by simp⟩
          exact String.toList_injective
            (by simpa [closed] using (Text.cut?_eq_some_iff.mp found).1)
      · split at cut
        · rename_i disowned
          obtain ⟨rfl, rfl⟩ := Prod.mk.inj (Except.ok.inj cut)
          refine ⟨by rw [closed, String.empty_append], by simp, by simp, ?_⟩
          intro _ other rest again
          obtain ⟨rfl, -⟩ := Prod.mk.inj (Option.some.inj (found.symm.trans again))
          exact disowned
        · cases cut

/-! ## The authority -/

theorem splitAuthority_eq_iff {text path : String} {authority : Option String} :
    splitAuthority text = (authority, path) ↔
      text = marked "//" authority ++ path ∧
        (∀ name ∈ authority, '/' ∉ name.toList) ∧
        (authority.isSome = true → path = "" ∨ Text.beginsWith '/' path = true) ∧
        (authority = none → Text.startsWith "//" path = false) := by
  constructor
  · intro cut
    unfold splitAuthority at cut
    split at cut
    · rename_i none
      obtain ⟨rfl, rfl⟩ := Prod.mk.inj cut
      refine ⟨by rw [marked_none, String.empty_append], by simp, by simp, fun _ => ?_⟩
      by_contra begun
      rw [Text.dropStart?, if_pos (by simpa using begun)] at none
      cases none
    · rename_i after begun
      obtain rfl := Text.dropStart?_eq_some_iff.mp begun
      split at cut
      · rename_i name rest found
        obtain ⟨rfl, rfl⟩ := Prod.mk.inj cut
        obtain ⟨whole, clear⟩ := Text.cut?_eq_some_iff.mp found
        refine ⟨?_, by simpa using clear, fun _ => .inr (by simp [Text.beginsWith]), by simp⟩
        exact String.toList_injective (by simp [marked_some, whole])
      · rename_i found
        obtain ⟨rfl, rfl⟩ := Prod.mk.inj cut
        refine ⟨by rw [marked_some, String.append_empty], ?_, fun _ => .inl rfl, by simp⟩
        simpa using Text.cut?_eq_none_iff.mp found
  · rintro ⟨rfl, closed, rooted, single⟩
    unfold splitAuthority
    cases authority with
    | none =>
        rw [marked_none, String.empty_append, Text.dropStart?, if_neg (by simp [single rfl])]
    | some name =>
        have unmarked : '/' ∉ name.toList := closed name rfl
        rw [marked_some, String.append_assoc, Text.dropStart?_append]
        rcases rooted rfl with rfl | begun
        · rw [String.append_empty]
          simp only [Text.cut?_eq_none_iff.mpr unmarked]
        · obtain ⟨rest, rfl⟩ : ∃ rest, path = "/" ++ rest := Text.exists_of_beginsWith begun
          have cut : Text.cut? '/' (name ++ ("/" ++ rest)) = some (name, rest) :=
            Text.cut?_eq_some_iff.mpr ⟨by simp, unmarked⟩
          simp only [cut]

/-! ## Reading what was written -/

/-- The text of an identifier before its query. -/
def front (uri : Uri) : String :=
  closed ":" uri.scheme ++ (marked "//" uri.authority ++ uri.path)

theorem text_eq (uri : Uri) :
    uri.text = uri.front ++ marked (String.singleton '?') uri.query ++
      marked (String.singleton '#') uri.fragment := by
  rw [text, front, ← String.append_assoc]
  rfl

theorem find?_isIllegal_eq_none_iff {text : String} :
    text.toList.find? isIllegal = none ↔ IsLegal text := by
  simp [List.find?_eq_none, IsLegal]

/-- A mark that ends the front of an identifier is missing in it where it is missing in the
authority and in the path. -/
theorem not_mem_front {uri : Uri} {mark : Char}
    (outside : (mark.isAlphanum || mark == '+' || mark == '-' || mark == '.') = false)
    (other : mark ≠ ':' ∧ mark ≠ '/')
    (scheme : ∀ name ∈ uri.scheme, isScheme name = true)
    (authority : ∀ name ∈ uri.authority, mark ∉ name.toList) (path : mark ∉ uri.path.toList) :
    mark ∉ uri.front.toList := by
  rw [front, String.toList_append, String.toList_append, List.mem_append, List.mem_append]
  rintro (member | member | member)
  · cases written : uri.scheme with
    | none => simp [written, closed] at member
    | some name =>
        have clear := not_mem_of_isScheme (scheme name written) outside
        simp [written, closed, clear, other.1] at member
  · cases written : uri.authority with
    | none => simp [written, marked_none] at member
    | some name => simp [written, marked_some, authority name written, other.2] at member
  · exact path member

theorem HasPlainParts.questionMark_not_mem_front {uri : Uri} (plain : uri.HasPlainParts) :
    '?' ∉ uri.front.toList :=
  not_mem_front (by decide) (by decide) plain.scheme
    (fun name written => (plain.authority name written).2.1) plain.path.1

theorem HasPlainParts.hash_not_mem {uri : Uri} (plain : uri.HasPlainParts) :
    '#' ∉ (uri.front ++ marked (String.singleton '?') uri.query).toList := by
  rw [String.toList_append, List.mem_append, not_or]
  refine ⟨not_mem_front (by decide) (by decide) plain.scheme
    (fun name written => (plain.authority name written).2.2) plain.path.2, ?_⟩
  cases written : uri.query with
  | none => simp [marked_none]
  | some query => simpa [marked_some] using plain.query query written

/-- The scheme of an identifier is found at its start. -/
theorem HasPlainParts.splitScheme_front {uri : Uri} (plain : uri.HasPlainParts) (whole : String) :
    splitScheme whole (uri.query.isNone && uri.fragment.isNone) uri.front =
      .ok (uri.scheme, marked "//" uri.authority ++ uri.path) := by
  unfold front
  cases scheme : uri.scheme with
  | some name =>
      have filled : ¬ (marked "//" uri.authority ++ uri.path = "" ∧
          (uri.query.isNone && uri.fragment.isNone) = true) := by
        rintro ⟨nothing, bare⟩
        rw [String.append_eq_empty_iff] at nothing
        rw [Bool.and_eq_true, Option.isNone_iff_eq_none, Option.isNone_iff_eq_none] at bare
        cases authority : uri.authority with
        | none => exact plain.body (by simp [scheme]) authority bare.1 bare.2 nothing.2
        | some name => simp [authority, marked_some] at nothing
      exact splitScheme_some whole (plain.scheme name scheme) filled
  | none =>
      rw [closed, String.empty_append]
      apply splitScheme_none
      intro before after cut
      cases authority : uri.authority with
      | none =>
          rw [authority, marked_none, String.empty_append] at cut
          exact plain.colon scheme authority before after cut
      | some name =>
          -- the text before the colon begins with the slashes of the authority
          have chars := (Text.cut?_eq_some_iff.mp cut).1
          rw [authority, marked_some] at chars
          cases start : before.toList with
          | nil => simp [start] at chars
          | cons c rest =>
              obtain rfl : '/' = c := by simpa [start] using congrArg List.head? chars
              simp [disownsColon, Text.has, start]

/-- The text of a written identifier is read as the identifier. -/
theorem parse_text {uri : Uri} (written : uri.IsWritten) : parse uri.text = .ok uri := by
  have fragment : beforeMark '#' uri.text =
      (uri.front ++ marked (String.singleton '?') uri.query, uri.fragment) :=
    beforeMark_eq_iff.mpr ⟨uri.text_eq, written.hash_not_mem⟩
  have query : beforeMark '?' (uri.front ++ marked (String.singleton '?') uri.query) =
      (uri.front, uri.query) :=
    beforeMark_eq_iff.mpr ⟨rfl, written.questionMark_not_mem_front⟩
  have authority : splitAuthority (marked "//" uri.authority ++ uri.path) =
      (uri.authority, uri.path) := by
    refine splitAuthority_eq_iff.mpr
      ⟨rfl, fun name present => (written.authority name present).1, written.rooted, ?_⟩
    intro absent
    by_contra begun
    exact written.single ⟨absent, by simpa using begun⟩
  unfold parse
  simp only [find?_isIllegal_eq_none_iff.mpr written.legal, fragment, query,
    written.splitScheme_front, authority]

/-- What is read from a text is written like that. -/
theorem isWritten_of_parse {text : String} {uri : Uri} (read : parse text = .ok uri) :
    uri.IsWritten ∧ uri.text = text := by
  unfold parse at read
  split at read
  · cases read
  rename_i legal
  simp only at read
  cases fragment : beforeMark '#' text with
  | mk before fragmentPart =>
  cases query : beforeMark '?' before with
  | mk front queryPart =>
  rw [fragment] at read
  simp only [query] at read
  split at read
  · cases read
  rename_i scheme body cut
  cases authority : splitAuthority body with
  | mk authorityPart path =>
  rw [authority] at read
  obtain rfl := Except.ok.inj read
  obtain ⟨rfl, unmarked⟩ := beforeMark_eq_iff.mp fragment
  obtain ⟨rfl, unasked⟩ := beforeMark_eq_iff.mp query
  obtain ⟨rfl, valid, filled, colon⟩ := splitScheme_eq_ok cut
  obtain ⟨rfl, unslashed, rooted, single⟩ := splitAuthority_eq_iff.mp authority
  have whole : (⟨scheme, authorityPart, path, queryPart, fragmentPart⟩ : Uri).text =
      closed ":" scheme ++ (marked "//" authorityPart ++ path) ++
        marked (String.singleton '?') queryPart ++ marked (String.singleton '#') fragmentPart :=
    text_eq _
  simp only [String.toList_append, List.mem_append, not_or] at unmarked unasked
  refine ⟨⟨⟨?_, valid, ?_, rooted, ⟨unasked.2.2, unmarked.1.2.2⟩, ?_, ?_, ?_⟩, ?_⟩, whole⟩
  · rw [whole]
    exact find?_isIllegal_eq_none_iff.mp legal
  · rintro name rfl
    exact ⟨unslashed name rfl, by simpa [marked_some] using unasked.2.1,
      by simpa [marked_some] using unmarked.1.2.1⟩
  · rintro name rfl
    simpa [marked_some] using unmarked.2
  · rintro present rfl rfl rfl rfl
    exact filled present ⟨rfl, rfl⟩
  · rintro absent rfl before after found
    exact colon absent before after (by rwa [marked_none, String.empty_append])
  · rintro ⟨rfl, begun⟩
    exact Bool.false_ne_true ((single rfl).symm.trans begun)

/-- Reading accepts exactly the texts of written identifiers. -/
theorem parse_eq_ok_iff {text : String} {uri : Uri} :
    parse text = .ok uri ↔ uri.IsWritten ∧ uri.text = text := by
  constructor
  · exact isWritten_of_parse
  · rintro ⟨written, rfl⟩
    exact parse_text written

end PackageResolution.Uri

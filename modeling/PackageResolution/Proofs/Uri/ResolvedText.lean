import PackageResolution.Proofs.Uri.Transform

/-!
# The text of a resolved identifier

The parts of an identifier that a reference leads to come from the base and from the reference, so
none of them holds a mark that ends it.  Yet the path can begin with two slashes where there is
no authority: after dot segments were removed in front of an empty segment, or where an archive
loses the authority that was written before it.  Then the text is read with an authority.  In every
other case it is read as the identifier.
-/

namespace PackageResolution.UriPath

/-! ## Characters of a path without dot segments -/

theorem mem_of_mem_intercalate {pieces : List String} {c : Char}
    (member : c ∈ ("/".intercalate pieces).toList) :
    c = '/' ∨ ∃ piece ∈ pieces, c ∈ piece.toList := by
  induction pieces with
  | nil => simp at member
  | cons piece pieces inductionHypothesis =>
      cases pieces with
      | nil => exact .inr ⟨piece, by simp, by simpa using member⟩
      | cons next pieces =>
          simp only [String.intercalate_cons_cons, String.toList_append, List.mem_append] at member
          rcases member with (among | among) | among
          · exact .inr ⟨piece, by simp, among⟩
          · exact .inl (List.mem_singleton.mp among)
          · rcases inductionHypothesis among with slash | ⟨other, present, among⟩
            · exact .inl slash
            · exact .inr ⟨other, List.mem_cons_of_mem _ present, among⟩

theorem mem_of_mem_assemble {absolute isOpen : Bool} {stack : List String} {c : Char}
    (member : c ∈ (assemble absolute isOpen stack).toList) :
    c = '/' ∨ ∃ piece ∈ stack, c ∈ piece.toList := by
  have ofBody (among : c ∈ ("/".intercalate stack.reverse).toList) :
      c = '/' ∨ ∃ piece ∈ stack, c ∈ piece.toList := by
    simpa using mem_of_mem_intercalate among
  have ofPath (among : c ∈ (if absolute = true then "/" ++ "/".intercalate stack.reverse
      else "/".intercalate stack.reverse).toList) :
      c = '/' ∨ ∃ piece ∈ stack, c ∈ piece.toList := by
    split at among
    · rw [String.toList_append, List.mem_append] at among
      rcases among with first | among
      · exact .inl (List.mem_singleton.mp first)
      · exact ofBody among
    · exact ofBody among
  simp only [assemble] at member
  generalize (if absolute = true then "/" ++ "/".intercalate stack.reverse
    else "/".intercalate stack.reverse) = path at member ofPath
  split at member
  · rw [String.toList_append, List.mem_append] at member
    rcases member with among | last
    · exact ofPath among
    · exact .inl (List.mem_singleton.mp last)
  · exact ofPath member

theorem mem_of_mem_segments {path piece : String} {c : Char} (present : piece ∈ segments path)
    (member : c ∈ piece.toList) : c ∈ path.toList := by
  have whole := (Text.exists_mem_fields_iff.mp ⟨piece, present, member⟩).1
  unfold Text.dropStart? at whole
  split at whole
  · rw [Option.getD_some, String.toList_ofList] at whole
    exact List.mem_of_mem_drop whole
  · exact whole

/-- What is left of a path without its dot segments is written with the characters of the path and
slashes. -/
theorem mem_of_mem_removeDots {path : String} {c : Char}
    (member : c ∈ (removeDots path).toList) : c ∈ path.toList ∨ c = '/' := by
  rcases mem_of_mem_assemble member with slash | ⟨piece, present, among⟩
  · exact .inr slash
  · rcases mem_of_mem_foldl_step present with impossible | present
    · exact absurd impossible List.not_mem_nil
    · exact .inl (mem_of_mem_segments present among)

end PackageResolution.UriPath

namespace PackageResolution.Uri

open UriPath (removeDots IsPlain)

/-! ## Where the characters come from -/

theorem mem_of_mem_mergePaths {base : Uri} {path : String} {c : Char}
    (member : c ∈ (mergePaths base path).toList) :
    c ∈ base.path.toList ∨ c ∈ path.toList ∨ c = '/' := by
  unfold mergePaths at member
  split at member
  · rw [String.toList_append, List.mem_append] at member
    rcases member with first | among
    · exact .inr (.inr (List.mem_singleton.mp first))
    · exact .inr (.inl among)
  · rw [String.toList_append, List.mem_append, String.toList_ofList] at member
    rcases member with among | among
    · exact .inl ((List.rdropWhile_prefix _ _).subset among)
    · exact .inr (.inl among)

/-- The path that a reference leads to is written with the characters of the two paths and
slashes. -/
theorem mem_of_mem_path_follow {base reference : Uri} {c : Char}
    (member : c ∈ (follow base reference).path.toList) :
    c ∈ base.path.toList ∨ c ∈ reference.path.toList ∨ c = '/' := by
  rw [follow_eq_followWith, followWith] at member
  cases target : targetPath? base reference with
  | none =>
      simp only [target, Option.map_none, Option.getD_none] at member
      exact .inl member
  | some path =>
      simp only [target, Option.map_some, Option.getD_some] at member
      rcases UriPath.mem_of_mem_removeDots member with among | slash
      · unfold targetPath? at target
        split at target
        · obtain rfl := Option.some.inj target
          exact .inr (.inl among)
        · split at target
          · cases target
          split at target
          · obtain rfl := Option.some.inj target
            exact .inr (.inl among)
          · obtain rfl := Option.some.inj target
            exact mem_of_mem_mergePaths among
      · exact .inr (.inr slash)

/-! ## Legal texts -/

theorem isLegal_append_iff {first second : String} :
    IsLegal (first ++ second) ↔ IsLegal first ∧ IsLegal second := by
  simp [IsLegal, or_imp, forall_and]

theorem isLegal_marked_iff {mark : String} (legal : IsLegal mark) {part : Option String} :
    IsLegal (marked mark part) ↔ ∀ text ∈ part, IsLegal text := by
  cases part with
  | none => simp [marked_none, IsLegal]
  | some text => simp [marked_some, isLegal_append_iff, legal]

/-- A text is legal exactly if the parts of the identifier are. -/
theorem isLegal_text_iff {uri : Uri} :
    IsLegal uri.text ↔ (∀ scheme ∈ uri.scheme, IsLegal scheme) ∧
      (∀ authority ∈ uri.authority, IsLegal authority) ∧ IsLegal uri.path ∧
      (∀ query ∈ uri.query, IsLegal query) ∧ ∀ fragment ∈ uri.fragment, IsLegal fragment := by
  have scheme : IsLegal (closed ":" uri.scheme) ↔ ∀ scheme ∈ uri.scheme, IsLegal scheme := by
    have colon : IsLegal ":" := by decide
    cases uri.scheme with
    | none => simp [closed, IsLegal]
    | some name => simp [closed, isLegal_append_iff, colon]
  simp only [text, isLegal_append_iff, scheme, isLegal_marked_iff (by decide : IsLegal "//"),
    isLegal_marked_iff (by decide : IsLegal "?"), isLegal_marked_iff (by decide : IsLegal "#"),
    and_assoc]

/-! ## The parts of what a reference leads to -/

/-- What is made of one text or else of another one. -/
theorem forall_mem_or {property : String → Prop} {first second : Option String}
    (holds : ∀ text ∈ first, property text) (holdsElse : ∀ text ∈ second, property text) :
    ∀ text ∈ first.or second, property text := by
  intro text member
  cases first with
  | none => exact holdsElse text (by simpa using member)
  | some other => exact holds text (by simpa using member)

theorem forall_mem_query_follow {property : String → Prop} (base reference : Uri)
    (ofBase : ∀ text ∈ base.query, property text)
    (ofReference : ∀ text ∈ reference.query, property text) :
    ∀ text ∈ (follow base reference).query, property text := by
  rw [follow_eq_followWith, followWith]
  dsimp only
  split
  · exact ofReference
  · exact forall_mem_or ofReference ofBase

/-- That a text can be the path of an identifier. -/
def IsPathText (text : String) : Prop :=
  IsLegal text ∧ '?' ∉ text.toList ∧ '#' ∉ text.toList

theorem isPathText_iff {text : String} :
    IsPathText text ↔ ∀ c ∈ text.toList, isIllegal c = false ∧ c ≠ '?' ∧ c ≠ '#' := by
  simp only [IsPathText, IsLegal, forall_and, and_congr_right_iff]
  intro _
  constructor
  · rintro ⟨unasked, unmarked⟩
    exact ⟨fun c member same => unasked (same ▸ member), fun c member same =>
      unmarked (same ▸ member)⟩
  · rintro ⟨unasked, unmarked⟩
    exact ⟨fun member => unasked '?' member rfl, fun member => unmarked '#' member rfl⟩

theorem HasPlainParts.isPathText {uri : Uri} (plain : uri.HasPlainParts) : IsPathText uri.path :=
  ⟨(isLegal_text_iff.mp plain.legal).2.2.1, plain.path⟩

theorem IsPathText.follow {base reference : Uri} (ofBase : IsPathText base.path)
    (ofReference : IsPathText reference.path) : IsPathText (follow base reference).path := by
  rw [isPathText_iff] at ofBase ofReference ⊢
  intro c member
  rcases mem_of_mem_path_follow member with among | among | rfl
  · exact ofBase c among
  · exact ofReference c among
  · decide

/-- A reference leads from a rooted identifier to a rooted one. -/
theorem IsRooted.follow {base reference : Uri} (rooted : base.IsRooted) {referenceText : String}
    (readReference : parse referenceText = .ok reference) : (follow base reference).IsRooted := by
  rw [follow_eq_followWith, followWith, IsRooted]
  cases target : targetPath? base reference with
  | none => exact rooted.imp_left fun both => ⟨by simp [both.1], both.2⟩
  | some path =>
      rcases rooted.targetPath?_shape readReference target with ⟨placed, rfl⟩ | begun
      · have nothing : removeDots "" = "" := by decide
        exact .inl ⟨by simp [placed], nothing⟩
      · exact .inr (UriPath.beginsWith_removeDots begun)

theorem hasPlainParts_follow {baseText referenceText : String} {base reference : Uri}
    (readBase : parse baseText = .ok base) (absolute : base.isAbsolute = true)
    (hierarchical : base.isOpaque = false) (readReference : parse referenceText = .ok reference) :
    (follow base reference).HasPlainParts := by
  have writtenBase := (isWritten_of_parse readBase).1
  have writtenReference := (isWritten_of_parse readReference).1
  have rooted := isRooted_of_parse readBase absolute hierarchical
  have legalBase := isLegal_text_iff.mp writtenBase.legal
  have legalReference := isLegal_text_iff.mp writtenReference.legal
  have path := IsPathText.follow writtenBase.isPathText writtenReference.isPathText
  have scheme : (follow base reference).scheme = base.scheme := by
    rw [follow_eq_followWith, followWith]
  have authority : (follow base reference).authority =
      reference.authority.or base.authority := by
    rw [follow_eq_followWith, followWith]
  have fragment : (follow base reference).fragment = reference.fragment := by
    rw [follow_eq_followWith, followWith]
  constructor
  case legal =>
    rw [isLegal_text_iff, scheme, authority, fragment]
    exact ⟨legalBase.1, forall_mem_or legalReference.2.1 legalBase.2.1, path.1,
      forall_mem_query_follow base reference legalBase.2.2.2.1 legalReference.2.2.2.1,
      legalReference.2.2.2.2⟩
  case scheme =>
    rw [scheme]
    exact writtenBase.scheme
  case authority =>
    rw [authority]
    exact forall_mem_or writtenReference.authority writtenBase.authority
  case rooted => exact fun _ => (rooted.follow readReference).imp_left And.right
  case path => exact path.2
  case query =>
    exact forall_mem_query_follow base reference writtenBase.query writtenReference.query
  case body =>
    intro _ alone _ _ empty
    rcases rooted.follow readReference with ⟨placed, -⟩ | begun
    · rw [alone] at placed
      cases placed
    · rw [empty] at begun
      exact absurd begun (by decide)
  case colon =>
    intro absent
    rw [scheme] at absent
    rw [isAbsolute, absent] at absolute
    cases absolute

/-! ## Archives -/

/-- What a reference leads to inside an archive. -/
def inArchive (base reference : Uri) (archive entry : String) : Uri where
  scheme := base.scheme
  authority := none
  path := archive ++ "!" ++ (follow (entryReference base entry) reference).path
  query := (follow (entryReference base entry) reference).query
  fragment := reference.fragment

/-- A reference without scheme is followed inside an archive or from the identifier as a
whole. -/
theorem resolve_cases {base reference : Uri} (relative : reference.isAbsolute = false) :
    (∃ archive entry, base.scheme = some "jar" ∧ reference.authority = none ∧
      Text.cut? '!' base.path = some (archive, entry) ∧
      resolve base reference = inArchive base reference archive entry) ∨
    resolve base reference = followPlain base reference := by
  rw [resolve, if_neg (by simp [relative])]
  split
  · rename_i jar
    cases inside : followInArchive? base reference with
    | none => exact .inr rfl
    | some found =>
        left
        unfold followInArchive? at inside
        split at inside
        · cases inside
        · rename_i archive entry cut
          dsimp only at inside
          split at inside
          · cases inside
          · rename_i stays
            obtain rfl := Option.some.inj inside
            rw [follow_eq_followWith, followWith, entryReference, Option.or_none,
              Option.not_isSome_iff_eq_none] at stays
            refine ⟨archive, entry, jar, stays, cut, ?_⟩
            rw [Option.getD_some, inArchive]
            simp only [follow_eq_followWith, followWith]
  · exact .inr rfl

theorem hasPlainParts_inArchive {base reference : Uri} (writtenBase : base.HasPlainParts)
    (absolute : base.isAbsolute = true) (writtenReference : reference.HasPlainParts)
    {archive entry : String} (cut : Text.cut? '!' base.path = some (archive, entry)) :
    (inArchive base reference archive entry).HasPlainParts := by
  obtain ⟨chars, -⟩ := Text.cut?_eq_some_iff.mp cut
  have legalBase := isLegal_text_iff.mp writtenBase.legal
  have legalReference := isLegal_text_iff.mp writtenReference.legal
  have whole := isPathText_iff.mp writtenBase.isPathText
  rw [chars, List.forall_mem_append, List.forall_mem_cons] at whole
  have ofEntry : IsPathText (entryReference base entry).path := isPathText_iff.mpr whole.2.2
  have path : IsPathText (inArchive base reference archive entry).path := by
    have followed := isPathText_iff.mp (ofEntry.follow writtenReference.isPathText)
    rw [isPathText_iff, inArchive, String.toList_append, String.toList_append,
      List.forall_mem_append, List.forall_mem_append]
    exact ⟨⟨whole.1, List.forall_mem_singleton.mpr (by decide)⟩, followed⟩
  constructor
  case legal =>
    rw [isLegal_text_iff]
    exact ⟨legalBase.1, by simp [inArchive], path.1,
      forall_mem_query_follow (entryReference base entry) reference legalBase.2.2.2.1
        legalReference.2.2.2.1, legalReference.2.2.2.2⟩
  case scheme => exact writtenBase.scheme
  case authority => simp [inArchive]
  case rooted => simp [inArchive]
  case path => exact path.2
  case query =>
    exact forall_mem_query_follow (entryReference base entry) reference
      writtenBase.query writtenReference.query
  case body =>
    intro _ _ _ _ empty
    simp [inArchive] at empty
  case colon =>
    intro absent
    have schemeless : base.scheme = none := absent
    rw [isAbsolute, schemeless] at absolute
    cases absolute

/-- The parts of a resolved identifier that has a scheme are plain. -/
theorem hasPlainParts_resolve {baseText referenceText : String} {base reference : Uri}
    (readBase : parse baseText = .ok base) (absolute : base.isAbsolute = true)
    (readReference : parse referenceText = .ok reference)
    (relative : reference.isAbsolute = false)
    (resolved : (resolve base reference).isAbsolute = true) :
    (resolve base reference).HasPlainParts := by
  rcases resolve_cases relative with ⟨archive, entry, -, -, cut, whole⟩ | whole
  · rw [whole]
    exact hasPlainParts_inArchive (isWritten_of_parse readBase).1.toHasPlainParts absolute
      (isWritten_of_parse readReference).1.toHasPlainParts cut
  · rw [whole, followPlain] at resolved ⊢
    split at resolved
    · rw [relative] at resolved
      cases resolved
    · rename_i hierarchical
      rw [if_neg hierarchical]
      exact hasPlainParts_follow readBase absolute (by simpa using hierarchical) readReference

/-! ## Paths that feign an authority -/

/-- What begins with two slashes is read as an authority and a path. -/
theorem HasPlainParts.parse_of_feignsAuthority {uri : Uri} (plain : uri.HasPlainParts)
    (feigns : uri.FeignsAuthority) :
    ∃ host path, uri.path = "//" ++ host ++ path ∧
      parse uri.text = .ok { uri with authority := some host, path := path } := by
  obtain ⟨absent, begun⟩ := feigns
  cases cut : splitAuthority uri.path with
  | mk authority path =>
  obtain ⟨whole, unslashed, rooted, single⟩ := splitAuthority_eq_iff.mp cut
  cases authority with
  | none =>
      rw [marked_none, String.empty_append] at whole
      rw [whole, single rfl] at begun
      cases begun
  | some host =>
      rw [marked_some] at whole
      have same : ({ uri with authority := some host, path := path } : Uri).text = uri.text := by
        rw [text_eq, text_eq, front, front, absent, whole, marked_some, marked_none,
          String.empty_append]
      have parts := isPathText_iff.mp plain.isPathText
      rw [whole, String.toList_append, String.toList_append, List.forall_mem_append,
        List.forall_mem_append] at parts
      have hostText := isPathText_iff.mpr parts.1.2
      refine ⟨host, path, whole, ?_⟩
      rw [← same]
      apply parse_text
      refine ⟨⟨?_, plain.scheme, ?_, rooted, (isPathText_iff.mpr parts.2).2, plain.query,
        ?_, ?_⟩, ?_⟩
      · rw [same]
        exact plain.legal
      · intro name present
        obtain rfl := Option.some.inj present
        exact ⟨unslashed host rfl, hostText.2⟩
      · intro _ absent
        cases absent
      · intro _ absent
        cases absent
      · intro feigns
        cases feigns.1

/-- Two slashes at the start do not reach over another character. -/
theorem startsWith_slashes_of_mark {first rest : String} {c : Char} (mark : c ≠ '/')
    (begun : Text.startsWith "//" (first ++ String.singleton c ++ rest) = true) (other : String) :
    Text.startsWith "//" (first ++ other) = true := by
  cases chars : first.toList with
  | nil => simp [Text.startsWith, chars, List.isPrefixOf, mark.symm] at begun
  | cons d more =>
      cases more with
      | nil => simp [Text.startsWith, chars, List.isPrefixOf, mark.symm] at begun
      | cons e more => simpa [Text.startsWith, chars, List.isPrefixOf] using begun

/-- A relative path that is taken from a directory begins with two slashes only if the directory
does. -/
theorem startsWith_slashes_of_directoryOf {path rest : String}
    (relative : Text.beginsWith '/' rest = false)
    (begun : Text.startsWith "//" (directoryOf path ++ rest) = true) :
    Text.startsWith "//" path = true := by
  unfold directoryOf at begun
  split at begun
  · rename_i before after cut
    obtain ⟨whole, -⟩ := Text.cutLast?_eq_some_iff.mp cut
    cases chars : before.toList with
    | nil =>
        cases others : rest.toList with
        | nil => simp [Text.startsWith, chars, others] at begun
        | cons c others' =>
            simp [Text.startsWith, chars, others, List.isPrefixOf] at begun
            simp [Text.beginsWith, others, ← begun] at relative
    | cons d more =>
        cases more with
        | nil => simpa [Text.startsWith, chars, whole, List.isPrefixOf] using begun
        | cons e more => simpa [Text.startsWith, chars, whole, List.isPrefixOf] using begun
  · rw [String.empty_append] at begun
    obtain ⟨rest, rfl⟩ : ∃ after, rest = "//" ++ after := by
      obtain ⟨chars, whole⟩ := List.isPrefixOf_iff_prefix.mp begun
      exact ⟨String.ofList chars, String.toList_injective (by simpa using whole.symm)⟩
    simp [Text.beginsWith] at relative

/-- A path that is followed from a rooted identifier feigns an authority only if there is none and
dot segments were removed from it. -/
theorem exists_dots_of_feignsAuthority {base reference : Uri} (writtenBase : base.IsWritten)
    (rooted : base.IsRooted) {referenceText : String}
    (readReference : parse referenceText = .ok reference)
    (feigns : (follow base reference).FeignsAuthority) :
    base.authority = none ∧ reference.authority = none ∧ ∃ path,
      targetPath? base reference = some path ∧
        ∃ segment ∈ UriPath.segments path, ¬ IsPlain segment := by
  rw [follow_eq_followWith, FeignsAuthority, followWith, Option.or_eq_none_iff] at feigns
  obtain ⟨⟨referenceAlone, baseAlone⟩, begun⟩ := feigns
  refine ⟨baseAlone, referenceAlone, ?_⟩
  cases target : targetPath? base reference with
  | none =>
      simp only [target, Option.map_none, Option.getD_none] at begun
      exact absurd ⟨baseAlone, begun⟩ writtenBase.single
  | some path =>
      simp only [target, Option.map_some, Option.getD_some] at begun
      refine ⟨path, rfl, ?_⟩
      by_contra plain
      simp only [not_exists, not_and, not_not] at plain
      have pathRooted : Text.beginsWith '/' path = true := by
        rcases rooted.targetPath?_shape readReference target with ⟨placed, -⟩ | pathRooted
        · rw [referenceAlone] at placed
          cases placed
        · exact pathRooted
      rw [UriPath.removeDots_eq_self pathRooted plain] at begun
      -- so the path feigns an authority as it is written, in the reference or in the base
      rw [targetPath?, referenceAlone, if_neg (by simp)] at target
      split at target
      · cases target
      split at target
      · obtain rfl := Option.some.inj target
        exact (isWritten_of_parse readReference).1.single ⟨referenceAlone, begun⟩
      · rename_i relative
        obtain rfl := Option.some.inj target
        rw [← merge_eq_mergePaths, merge, baseAlone, if_neg (by simp)] at begun
        exact writtenBase.single ⟨baseAlone,
          startsWith_slashes_of_directoryOf (by simpa using relative) begun⟩

/-- The text of an identifier with a scheme that a reference leads to is read as the identifier,
unless its path feigns an authority; then the start of the path is read as one.  A path feigns an
authority only inside an archive that was written after an authority and two slashes, or where
neither the base nor the reference has an authority and dot segments were removed. -/
theorem resolved_text_read_back_iff {baseText referenceText : String} {base reference : Uri}
    (readBase : parse baseText = .ok base) (absolute : base.isAbsolute = true)
    (readReference : parse referenceText = .ok reference)
    (relative : reference.isAbsolute = false)
    (resolved : (resolve base reference).isAbsolute = true) :
    (parse (resolve base reference).text = .ok (resolve base reference) ↔
      ¬ (resolve base reference).FeignsAuthority) ∧
    ((resolve base reference).FeignsAuthority →
      (∃ host path, (resolve base reference).path = "//" ++ host ++ path ∧
        parse (resolve base reference).text =
          .ok { resolve base reference with authority := some host, path := path }) ∧
      reference.authority = none ∧
      (base.scheme = some "jar" ∧ base.authority.isSome = true ∧
          Text.startsWith "//" base.path = true ∨
        base.authority = none ∧ ∃ path, targetPath? base reference = some path ∧
          ∃ segment ∈ UriPath.segments path, ¬ IsPlain segment)) := by
  have plain := hasPlainParts_resolve readBase absolute readReference relative resolved
  have writtenBase := (isWritten_of_parse readBase).1
  constructor
  · constructor
    · intro read feigns
      exact (isWritten_of_parse read).1.single feigns
    · intro single
      exact parse_text ⟨plain, single⟩
  · intro feigns
    refine ⟨plain.parse_of_feignsAuthority feigns, ?_⟩
    rcases resolve_cases relative with ⟨archive, entry, jar, inside, cut, whole⟩ | whole
    · rw [whole] at feigns
      obtain ⟨chars, -⟩ := Text.cut?_eq_some_iff.mp cut
      have path : base.path = archive ++ ("!" ++ entry) :=
        String.toList_injective (by simpa using chars)
      have begun : Text.startsWith "//" base.path = true := by
        rw [path]
        exact startsWith_slashes_of_mark (by decide : '!' ≠ '/') feigns.2 _
      have placed : base.authority.isSome = true := by
        by_contra alone
        exact writtenBase.single ⟨by simpa using alone, begun⟩
      exact ⟨inside, .inl ⟨jar, placed, begun⟩⟩
    · rw [whole, followPlain] at feigns resolved
      split at resolved
      · rw [relative] at resolved
        cases resolved
      · rename_i hierarchical
        rw [if_neg hierarchical] at feigns
        have rooted := isRooted_of_parse readBase absolute (by simpa using hierarchical)
        obtain ⟨baseAlone, referenceAlone, target⟩ :=
          exists_dots_of_feignsAuthority writtenBase rooted readReference feigns
        exact ⟨referenceAlone, .inr ⟨baseAlone, target⟩⟩

theorem nest_text_read_back :
    ∃ base reference, parse "jar:file:///birds.jar!/nest/twig" = .ok base ∧
      parse "../..//./egg?q#/f" = .ok reference ∧
      (resolve base reference).text = "jar:file:///birds.jar!//egg?q#/f" ∧
      parse "jar:file:///birds.jar!//egg?q#/f" = .ok (resolve base reference) := by
  have readBase : parse "jar:file:///birds.jar!/nest/twig" =
      .ok ⟨some "jar", none, "file:///birds.jar!/nest/twig", none, none⟩ := rfl
  have readReference : parse "../..//./egg?q#/f" =
      .ok ⟨none, none, "../..//./egg", some "q", some "/f"⟩ := rfl
  refine ⟨_, _, readBase, readReference, by decide +kernel, ?_⟩
  exact (resolved_text_read_back_iff readBase (by decide) readReference (by decide)
    (by decide +kernel)).1.mpr (by decide +kernel)

/-- The dot of `/.//nest/twig` is removed before an empty segment, and the nest is read as an
authority. -/
theorem nest_read_as_authority :
    ∃ base reference, parse "file:/birds" = .ok base ∧ base.isAbsolute = true ∧
      parse "/.//nest/twig" = .ok reference ∧ reference.isAbsolute = false ∧
      (resolve base reference).isAbsolute = true ∧
      (resolve base reference).authority = none ∧
      (resolve base reference).path = "//nest/twig" ∧
      parse (resolve base reference).text =
        .ok ⟨some "file", some "nest", "/twig", none, none⟩ ∧
      parse (resolve base reference).text ≠ .ok (resolve base reference) :=
  ⟨⟨some "file", none, "/birds", none, none⟩, ⟨none, none, "/.//nest/twig", none, none⟩, rfl,
    rfl, rfl, rfl, rfl, by decide +kernel, by decide +kernel, by decide +kernel,
    by decide +kernel⟩

end PackageResolution.Uri

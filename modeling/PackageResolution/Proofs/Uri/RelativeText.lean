import PackageResolution.Proofs.Uri.Relativize
import PackageResolution.Proofs.Uri.ResolvedText

/-!
# The text of a relative reference

The way from one identifier to another is a climb and a descent, and its names come from the path
that it leads to.  They may be empty and may hold colons.  The `./` that guards the way stands
wherever the text would otherwise be empty, begin with a slash or have a colon in its first piece.
So the text is read as a relative path: no part of it is taken for a scheme or for an authority.
-/

namespace PackageResolution.Uri

open UriPath (removeDots)

/-! ## What a guard is for -/

/-- A colon that the first piece of a path does not hold comes after a slash. -/
theorem slash_mem_of_cut {path before after : String}
    (plain : ':' ∉ ((Text.fields '/' path).headD "").toList)
    (cut : Text.cut? ':' path = some (before, after)) : '/' ∈ before.toList := by
  obtain ⟨chars, -⟩ := Text.cut?_eq_some_iff.mp cut
  cases first : Text.cut? '/' path with
  | none =>
      rw [Text.fields_of_not_mem (Text.cut?_eq_none_iff.mp first), List.headD_cons, chars] at plain
      exact absurd (List.mem_append_right _ List.mem_cons_self) plain
  | some parts =>
      obtain ⟨start, rest⟩ := parts
      obtain ⟨whole, unslashed⟩ := Text.cut?_eq_some_iff.mp first
      obtain rfl : path = start ++ "/" ++ rest := String.toList_injective (by simpa using whole)
      rw [Text.fields_append, Text.fields_of_not_mem unslashed] at plain
      -- the colon is not in the first piece, so what is before it holds that piece and the slash
      rw [whole] at chars
      rcases List.append_eq_append_iff.mp chars with ⟨more, same, later⟩ | ⟨more, same, later⟩
      · cases more with
        | nil => exact absurd (List.cons.inj later).1 (by decide)
        | cons c more =>
            rw [same, ← (List.cons.inj later).1]
            exact List.mem_append_right _ List.mem_cons_self
      · cases more with
        | nil => exact absurd (List.cons.inj later).1 (by decide)
        | cons c more =>
            refine absurd ?_ plain
            rw [List.cons_append, List.headD_cons, same, ← (List.cons.inj later).1]
            exact List.mem_append_right _ List.mem_cons_self

/-- What stands before the first colon of a guarded path is not taken for a scheme. -/
theorem disownsColon_of_cut_guarded {path before after : String}
    (cut : Text.cut? ':' (guarded path) = some (before, after)) : disownsColon before = true := by
  unfold guarded at cut
  dsimp only at cut
  rw [disownsColon, Bool.or_eq_true]
  split at cut
  · -- the text before the colon begins with the dot of the guard
    right
    obtain ⟨chars, -⟩ := Text.cut?_eq_some_iff.mp cut
    cases start : before.toList with
    | nil => simp [start] at chars
    | cons c rest =>
        have dot : '.' = c := by simpa [start] using congrArg List.head? chars
        rw [Text.beginsWith, start, ← dot]
        rfl
  · left
    rename_i plain
    rw [Bool.or_eq_true, not_or, Text.has, List.contains_iff_mem] at plain
    rw [Text.has, List.contains_iff_mem]
    exact slash_mem_of_cut plain.2 cut

/-- A guarded path is read back from its text, with what follows it. -/
theorem isWritten_guarded {path : String} {query fragment : Option String}
    (pathText : IsPathText (guarded path))
    (queryText : ∀ text ∈ query, IsLegal text ∧ '#' ∉ text.toList)
    (fragmentText : ∀ text ∈ fragment, IsLegal text) :
    (⟨none, none, guarded path, query, fragment⟩ : Uri).IsWritten := by
  refine ⟨⟨?_, by simp, by simp, by simp, pathText.2, fun text member => (queryText text member).2,
    by simp, fun _ _ _ _ cut => disownsColon_of_cut_guarded cut⟩, ?_⟩
  · rw [isLegal_text_iff]
    exact ⟨by simp, by simp, pathText.1, fun text member => (queryText text member).1, fragmentText⟩
  · rintro ⟨-, begun⟩
    obtain ⟨chars, whole⟩ := List.isPrefixOf_iff_prefix.mp begun
    have rooted : Text.beginsWith '/' (guarded path) = true := by
      rw [Text.beginsWith, ← whole]
      rfl
    rw [beginsWith_guarded] at rooted
    cases rooted

/-! ## The characters of the way -/

/-- The way to a path is written with the characters of the path, dots and slashes. -/
theorem mem_of_mem_wayTo {base : Uri} {path : String} {c : Char}
    (member : c ∈ (wayTo base path).toList) : c ∈ path.toList ∨ c = '.' ∨ c = '/' := by
  by_cases slash : c = '/'
  · exact .inr (.inr slash)
  have closed := UriPath.areClosed_segments (removeDots path)
  have filled := UriPath.segments_ne_nil (removeDots path)
  have last : (UriPath.segments (removeDots path)).getLastD "" ∈
      UriPath.segments (removeDots path) := by
    rw [List.getLastD_eq_getLast?, List.getLast?_eq_some_getLast filled, Option.getD_some]
    exact List.getLast_mem filled
  -- every piece of the way is a dot segment or a segment of the path
  obtain ⟨start, single, pieces, -⟩ := fields_guarded
    (descent (UriPath.segments (removeDots base.path)).dropLast
      (UriPath.segments (removeDots path)).dropLast
      ((UriPath.segments (removeDots path)).getLastD ""))
  rw [fields_descent _ (fun segment among => closed segment (List.dropLast_subset _ among))
    (closed _ last)] at pieces
  obtain ⟨piece, present, among⟩ := Text.exists_mem_fields_iff.mpr ⟨member, slash⟩
  rw [wayTo, pieces, List.mem_append, List.mem_append, List.mem_append, List.mem_singleton]
    at present
  have ofSegment (segment : piece ∈ UriPath.segments (removeDots path)) :
      c ∈ path.toList ∨ c = '.' ∨ c = '/' :=
    (UriPath.mem_of_mem_removeDots (UriPath.mem_of_mem_segments segment among)).imp_right .inr
  rcases present with first | climb | directory | name
  · rcases single with rfl | rfl
    · exact absurd first List.not_mem_nil
    · rw [List.mem_singleton.mp first] at among
      exact .inr (.inl (List.mem_singleton.mp among))
  · rw [List.eq_of_mem_replicate climb] at among
    exact .inr (.inl (by simpa using among))
  · exact ofSegment (List.dropLast_subset _ (List.mem_of_mem_drop directory))
  · exact ofSegment (name ▸ last)

theorem IsPathText.wayTo {path : String} (pathText : IsPathText path) (base : Uri) :
    IsPathText (wayTo base path) := by
  rw [isPathText_iff] at pathText ⊢
  intro c member
  rcases mem_of_mem_wayTo member with among | rfl | rfl
  · exact pathText c among
  · decide
  · decide

/-! ## The reference -/

/-- The reference that leads from a base to an identifier is the identifier itself where they are
not related.  Where they are, it is a relative path, and it is read back from its text. -/
theorem relative_text_read_back {fullText baseText : String} {full base : Uri}
    (readFull : parse fullText = .ok full) (fullAbsolute : full.isAbsolute = true)
    (fullHierarchical : full.isOpaque = false)
    (readBase : parse baseText = .ok base) (baseAbsolute : base.isAbsolute = true)
    (baseHierarchical : base.isOpaque = false) :
    ¬ Related full base ∧ relativize full base = full ∨
      Related full base ∧ (relativize full base).scheme = none ∧
        (relativize full base).authority = none ∧ (relativize full base).path ≠ "" ∧
        Text.beginsWith '/' (relativize full base).path = false ∧
        parse (relativize full base).text = .ok (relativize full base) := by
  have fullRooted := isRooted_of_parse readFull fullAbsolute fullHierarchical
  have baseRooted := isRooted_of_parse readBase baseAbsolute baseHierarchical
  by_cases related : Related full base
  · right
    have written := (isWritten_of_parse readFull).1
    have legal := isLegal_text_iff.mp written.legal
    have pathText := written.isPathText.wayTo base
    obtain ⟨path, way⟩ : ∃ path, wayTo base full.path = guarded path := ⟨_, rfl⟩
    rw [fullRooted.relativize_of_related fullHierarchical baseRooted baseHierarchical related, way]
    rw [way] at pathText
    refine ⟨related, rfl, rfl, guarded_ne_empty path, beginsWith_guarded path, ?_⟩
    apply parse_text
    apply isWritten_guarded pathText
    · intro query member
      have present : query ∈ full.query := (Option.mem_ite_none_left.mp member).2
      exact ⟨legal.2.2.2.1 query present, written.query query present⟩
    · intro fragment member
      exact legal.2.2.2.2 fragment (Option.mem_ite_none_left.mp member).2
  · exact .inl ⟨related, fullRooted.relativize_of_not_related baseRooted related⟩

/-- The colon of a name after an empty one ends no scheme, and the empty name begins no
authority. -/
theorem egg_text_read_back :
    ∃ full base, parse "jar:/nest//egg:1?q#f" = .ok full ∧ full.isAbsolute = true ∧
      full.isOpaque = false ∧ parse "jar:/nest/twig" = .ok base ∧ base.isAbsolute = true ∧
      base.isOpaque = false ∧ (relativize full base).text = ".//egg:1?q#f" ∧
      parse ".//egg:1?q#f" = .ok (relativize full base) := by
  have readFull : parse "jar:/nest//egg:1?q#f" =
      .ok ⟨some "jar", none, "/nest//egg:1", some "q", some "f"⟩ := rfl
  have readBase : parse "jar:/nest/twig" = .ok ⟨some "jar", none, "/nest/twig", none, none⟩ := rfl
  have related : Related ⟨some "jar", none, "/nest//egg:1", some "q", some "f"⟩
      ⟨some "jar", none, "/nest/twig", none, none⟩ := ⟨rfl, rfl, by decide⟩
  have written : (relativize ⟨some "jar", none, "/nest//egg:1", some "q", some "f"⟩
      ⟨some "jar", none, "/nest/twig", none, none⟩).text = ".//egg:1?q#f" := by decide +kernel
  refine ⟨_, _, readFull, rfl, by decide, readBase, rfl, by decide, written, ?_⟩
  rw [← written]
  rcases relative_text_read_back readFull rfl (by decide) readBase rfl (by decide) with
    ⟨apart, -⟩ | ⟨-, -, -, -, -, read⟩
  · exact absurd related apart
  · exact read

end PackageResolution.Uri

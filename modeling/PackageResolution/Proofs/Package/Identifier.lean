import PackageResolution.Package.Uri
import PackageResolution.Proofs.Text.Cut
import PackageResolution.Proofs.Version.Text

/-!
# Reading back package identifiers

Each mark in the text of a package identifier is found where it was written: the first
slash ends the authority, the first `::` after it begins the pin, and the last `@` before
the pin begins the version.  So the text of a package is read as the package, and the text
of a key determines the key.
-/

namespace PackageResolution

/-! ## Characters of versions -/

theorem Version.isPartChar_of_mem_part {part : Part} {chars : List Char}
    (valid : chars = [] ∨ isPart part chars = true) {c : Char} (member : c ∈ chars) :
    isPartChar c = true := by
  rcases valid with rfl | valid
  · exact nomatch member
  · rw [isPart, Bool.and_eq_true, Bool.and_eq_true] at valid
    exact List.all_eq_true.mp valid.1.2 c member

theorem Version.mem_optionalText {sign c : Char} {run : List Char}
    (member : c ∈ optionalText sign run) : c = sign ∨ c ∈ run := by
  unfold optionalText at member
  split at member
  · exact nomatch member
  · exact List.mem_cons.mp member

theorem Version.mem_text {version : Version} {c : Char} (member : c ∈ version.text.toList) :
    isPartChar c = true ∨ c = '+' := by
  have digit (value : Nat) (among : c ∈ Nat.toDigits 10 value) : isPartChar c = true := by
    have ten : c.isDigit = true := Nat.isDigit_of_mem_toDigits (by decide) (by decide) among
    simp [isPartChar, isIdentifierChar, Char.isAlphanum, ten]
  rw [text_toList] at member
  simp only [List.mem_append, List.mem_cons, List.not_mem_nil, or_false] at member
  rcases member with among | rfl | among | rfl | among | among | among
  · exact .inl (digit _ among)
  · exact .inl rfl
  · exact .inl (digit _ among)
  · exact .inl rfl
  · exact .inl (digit _ among)
  · rcases mem_optionalText among with rfl | among
    · exact .inl rfl
    · exact .inl (isPartChar_of_mem_part version.preRelease_valid among)
  · rcases mem_optionalText among with rfl | among
    · exact .inr rfl
    · exact .inl (isPartChar_of_mem_part version.build_valid among)

/-- No mark of a package identifier stands in a version. -/
theorem Version.not_mem_text {version : Version} {c : Char} (mark : isPartChar c = false)
    (other : c ≠ '+') : c ∉ version.text.toList := by
  intro member
  rcases mem_text member with among | same
  · rw [mark] at among
    exact nomatch among
  · exact other same

theorem Checksum.parse_text {checksum : Checksum} (filled : checksum.sha256 ≠ "") :
    parse checksum.text = .ok checksum := by
  rw [parse, text, Text.dropStart?_append]
  exact if_neg filled

namespace PackageUri

/-! ## Pins -/

theorem cutPin?_eq_none_of_not_mem {text : List Char} (plain : ':' ∉ text) :
    cutPin? text = none := by
  cases found : cutPin? text with
  | none => rfl
  | some parts =>
      have whole := (eq_append_of_cutPin? found).1
      rw [whole] at plain
      exact absurd (List.mem_append_right _ List.mem_cons_self) plain

/-- No pin begins in a text that goes on without colons. -/
theorem cutPin?_append_eq_none {before after : List Char} (clear : cutPin? before = none)
    (plain : ':' ∉ after) : cutPin? (before ++ after) = none := by
  fun_induction cutPin? before with
  | case1 => cases clear
  | case2 => exact cutPin?_eq_none_of_not_mem plain
  | case3 c rest unmarked inductionHypothesis =>
      rw [Option.map_eq_none_iff] at clear
      rw [List.cons_append, cutPin?, inductionHypothesis clear, Option.map_none]
      rintro last rfl continued
      cases rest with
      | nil =>
          rw [List.nil_append] at continued
          exact plain (continued ▸ List.mem_cons_self)
      | cons d rest => exact unmarked _ rfl (by rw [(List.cons.inj continued).1])

/-- A pin is found behind a text in which none begins. -/
theorem cutPin?_append_pin {before : List Char} (clear : cutPin? before = none)
    (closed : before.getLast? ≠ some ':') (after : List Char) :
    cutPin? (before ++ ':' :: ':' :: after) = some (before, after) := by
  fun_induction cutPin? before with
  | case1 => cases clear
  | case2 => rfl
  | case3 c rest unmarked inductionHypothesis =>
      rw [Option.map_eq_none_iff] at clear
      cases rest with
      | nil =>
          have other : c ≠ ':' := fun same => closed (same ▸ rfl)
          rw [List.cons_append, cutPin?, List.nil_append, cutPin?]
          · rfl
          · exact fun last same => absurd same other
      | cons d rest =>
          rw [List.getLast?_cons_cons] at closed
          rw [List.cons_append, cutPin?, inductionHypothesis clear closed]
          · rfl
          · rintro last rfl continued
            exact unmarked _ rfl (by rw [(List.cons.inj continued).1])

/-! ## The parts of an identifier -/

theorem isAuthority_iff {authority : String} : isAuthority authority = true ↔
    authority ≠ "" ∧ '/' ∉ authority.toList ∧ '#' ∉ authority.toList := by
  simp [isAuthority, Text.has, and_assoc]

theorem isRooted_of_isPath {path : String} (valid : isPath path = true) : IsRooted path := by
  simp only [isPath, Bool.and_eq_true, Bool.not_eq_true', Text.has,
    Option.isNone_iff_eq_none] at valid
  exact ⟨valid.1.1.1, by simpa using valid.1.2, valid.2⟩

theorem IsRooted.exists_eq {path : String} (rooted : IsRooted path) :
    ∃ rest, path = "/" ++ rest :=
  Text.exists_of_beginsWith rooted.1

variable (package : PackageUri)

theorem authority_plain :
    package.authority ≠ "" ∧ '/' ∉ package.authority.toList ∧
      '#' ∉ package.authority.toList :=
  isAuthority_iff.mp package.authority_valid

theorem path_rooted : IsRooted package.path :=
  isRooted_of_isPath package.path_valid

theorem path_segments : (UriPath.segments package.path).all isPlainSegment = true := by
  have valid := package.path_valid
  simp only [isPath, Bool.and_eq_true] at valid
  exact valid.1.1.2

theorem exists_path : ∃ rest, package.path = "/" ++ rest :=
  package.path_rooted.exists_eq

/-- A path is longer than its slash, since the segment after the slash is not empty. -/
theorem one_lt_length_path : 1 < package.path.length := by
  obtain ⟨rest, whole⟩ := package.exists_path
  have plain := package.path_segments
  rw [whole] at plain ⊢
  by_cases empty : rest = ""
  · subst empty
    exact absurd plain (by decide)
  · have filled : rest.length ≠ 0 := fun none => empty (String.length_eq_zero_iff.mp none)
    rw [String.length_append]
    exact Nat.lt_add_of_pos_right (Nat.pos_of_ne_zero filled)

theorem versionedPath_toList : package.versionedPath.toList =
    package.path.toList ++ '@' :: package.version.text.toList := by
  simp [versionedPath]

theorem cutPin?_versionedPath : cutPin? package.versionedPath.toList = none := by
  rw [versionedPath_toList]
  refine cutPin?_append_eq_none package.path_rooted.2.2 fun member => ?_
  rcases List.mem_cons.mp member with same | among
  · exact nomatch same
  · exact Version.not_mem_text (by decide) (by decide) among

theorem getLast?_versionedPath : package.versionedPath.toList.getLast? ≠ some ':' := by
  rw [versionedPath_toList, List.getLast?_append_cons]
  intro last
  rcases List.mem_cons.mp (List.mem_of_getLast? last) with same | among
  · exact nomatch same
  · exact Version.not_mem_text (by decide) (by decide) among

theorem hash_not_mem_versionedPath : '#' ∉ package.versionedPath.toList := by
  rw [versionedPath_toList, List.mem_append, List.mem_cons, not_or, not_or]
  exact ⟨package.path_rooted.2.1, by decide, Version.not_mem_text (by decide) (by decide)⟩

/-- The text of a package between its scheme and its pin. -/
def main : String :=
  package.authority ++ package.versionedPath

/-- The text of the pin of a package with the mark before it. -/
def pinText : String :=
  match package.pin with
  | none => ""
  | some pin => "::" ++ pin.text

theorem text_eq :
    package.text = package.scheme.text ++ "://" ++ (package.main ++ package.pinText) := by
  simp only [text, main, String.append_assoc]
  rfl

/-! ## The round trip -/

theorem splitScheme?_text :
    splitScheme? package.text = some (package.scheme, package.main ++ package.pinText) := by
  rw [text_eq]
  cases package.scheme with
  | package =>
      have mark : PackageScheme.package.text ++ "://" = "package://" := rfl
      rw [splitScheme?, mark, Text.dropStart?_append]
  | projectPackage =>
      have mark : PackageScheme.projectPackage.text ++ "://" = "projectpackage://" := rfl
      have other : Text.dropStart? "package://"
          ("projectpackage://" ++ (package.main ++ package.pinText)) = none := by
        rw [Text.dropStart?, Text.startsWith, String.toList_append]
        rfl
      rw [splitScheme?, mark, other, Text.dropStart?_append]
      rfl

/-- The authority is the run up to the first slash. -/
theorem authority_run (after : List Char) :
    (∀ c ∈ package.authority.toList, (c != '/') = true) ∧
      Text.EndsRun (· != '/') (package.versionedPath.toList ++ after) := by
  constructor
  · intro c member
    rw [bne_iff_ne]
    rintro rfl
    exact package.authority_plain.2.1 member
  · obtain ⟨rest, whole⟩ := package.exists_path
    rw [versionedPath_toList, whole, String.toList_append]
    exact Text.endsRun_cons (by decide) _

theorem takeWhile_main (after : List Char) :
    (package.main.toList ++ after).takeWhile (· != '/') = package.authority.toList := by
  obtain ⟨run, ends⟩ := package.authority_run after
  rw [main, String.toList_append, List.append_assoc,
    Text.takeWhile_append_of_endsRun run ends]

theorem dropWhile_main (after : List Char) :
    (package.main.toList ++ after).dropWhile (· != '/') =
      package.versionedPath.toList ++ after := by
  obtain ⟨run, ends⟩ := package.authority_run after
  rw [main, String.toList_append, List.append_assoc,
    Text.dropWhile_append_of_endsRun run ends]

theorem splitPin_main : splitPin (package.main ++ package.pinText) =
    (package.main, package.pin.map Checksum.text) := by
  have parts : package.main.toList = package.authority.toList ++ package.versionedPath.toList :=
    String.toList_append
  unfold splitPin pinText
  cases package.pin with
  | none =>
      have clear : cutPin? ((package.main ++ "").toList.dropWhile (· != '/')) = none := by
        rw [String.toList_append, dropWhile_main, String.toList_empty, List.append_nil,
          cutPin?_versionedPath]
      rw [clear, String.append_empty]
      rfl
  | some pin =>
      have found : cutPin? ((package.main ++ ("::" ++ pin.text)).toList.dropWhile (· != '/')) =
          some (package.versionedPath.toList, pin.text.toList) := by
        rw [String.toList_append, dropWhile_main, String.toList_append]
        exact cutPin?_append_pin package.cutPin?_versionedPath package.getLast?_versionedPath _
      rw [found, String.toList_append, takeWhile_main]
      simp only [← parts, String.ofList_toList, Option.map_some]

theorem isMain_main : IsMain package.main := by
  have start := package.dropWhile_main []
  rw [List.append_nil, List.append_nil] at start
  refine ⟨?_, ?_⟩
  · rw [main, String.toList_append, List.mem_append, not_or]
    exact ⟨package.authority_plain.2.2, package.hash_not_mem_versionedPath⟩
  · rw [start, cutPin?_versionedPath]

theorem parseMain_main (whole : String) (plain : IsMain package.main) :
    parseMain whole package.scheme package.main package.pin plain = .ok package := by
  obtain ⟨rest, path⟩ := package.exists_path
  have first : Text.cut? '/' package.main =
      some (package.authority, rest ++ "@" ++ package.version.text) := by
    rw [Text.cut?_eq_some_iff]
    exact ⟨by simp [main, versionedPath, path], package.authority_plain.2.1⟩
  have second : Text.cutLast? '@' ("/" ++ (rest ++ "@" ++ package.version.text)) =
      some (package.path, package.version.text) := by
    rw [Text.cutLast?_eq_some_iff]
    exact ⟨by simp [path], Version.not_mem_text (by decide) (by decide)⟩
  unfold parseMain
  split
  · rename_i absent
    rw [first] at absent
    exact nomatch absent
  rename_i authority after cut
  obtain ⟨rfl, rfl⟩ := Prod.mk.inj (Option.some.inj (first.symm.trans cut))
  simp only
  split
  · rename_i absent
    rw [second] at absent
    exact nomatch absent
  rename_i start version cutAt
  obtain ⟨rfl, rfl⟩ := Prod.mk.inj (Option.some.inj (second.symm.trans cutAt))
  have long := package.one_lt_length_path
  have versioned : package.version.text ≠ "" := fun empty => by
    have read := Version.parse_text package.version
    rw [empty] at read
    exact nomatch read
  rw [ofParts, dif_neg package.authority_plain.1, if_neg (Nat.not_le_of_lt long),
    dif_pos package.path_segments, if_neg versioned, Version.parse_text]

/-- That the pin of a package, if it has one, can be written. -/
def HasPlainPin : Prop :=
  ∀ pin, package.pin = some pin → pin.sha256 ≠ "" ∧ '#' ∉ pin.sha256.toList

theorem hash_not_mem_pinText {package : PackageUri} (plain : package.HasPlainPin) :
    '#' ∉ package.pinText.toList := by
  unfold pinText
  cases held : package.pin with
  | none => exact List.not_mem_nil
  | some pin =>
      have prefixPlain : '#' ∉ "::sha256:".toList := by decide
      have parts : ("::" ++ pin.text).toList = "::sha256:".toList ++ pin.sha256.toList := by
        simp [Checksum.text]
      rw [parts, List.mem_append, not_or]
      exact ⟨prefixPlain, (plain pin held).2⟩

/-- The text of a package is read as the package. -/
theorem parse_text {package : PackageUri} (plain : package.HasPlainPin) :
    parse package.text = .ok package := by
  have unmarked : ¬ Text.has '#' (package.main ++ package.pinText) = true := by
    rw [Text.has, List.contains_iff_mem, String.toList_append, List.mem_append, not_or]
    exact ⟨package.isMain_main.1, hash_not_mem_pinText plain⟩
  rw [parse, splitScheme?_text]
  simp only [dif_neg unmarked]
  split
  · rename_i main split
    obtain ⟨rfl, unpinned⟩ := Prod.mk.inj (package.splitPin_main.symm.trans split)
    have read := package.parseMain_main package.text package.isMain_main
    rwa [Option.map_eq_none_iff.mp unpinned] at read
  · rename_i main written split
    obtain ⟨rfl, pinned⟩ := Prod.mk.inj (package.splitPin_main.symm.trans split)
    obtain ⟨pin, held, rfl⟩ := Option.map_eq_some_iff.mp pinned
    have read := package.parseMain_main package.text package.isMain_main
    rw [held] at read
    simp only [Checksum.parse_text (plain pin held).1]
    exact read

end PackageUri

namespace PackageKey

/-- The marks in the text of a key are found where they were written. -/
theorem exists_cuts (key : PackageKey) :
    ∃ rest, key.path = "/" ++ rest ∧
      (Text.dropStart? "package://" key.text).bind (Text.cut? '/') =
        some (key.authority, rest ++ "@" ++ toString key.major) ∧
      Text.cutLast? '@' (rest ++ "@" ++ toString key.major) =
        some (rest, toString key.major) := by
  obtain ⟨rest, path⟩ := (PackageUri.isRooted_of_isPath key.path_valid).exists_eq
  have written : key.text =
      "package://" ++ (key.authority ++ (key.path ++ "@" ++ toString key.major)) := by
    simp only [text, String.append_assoc]
    rfl
  refine ⟨rest, path, ?_, ?_⟩
  · rw [written, Text.dropStart?_append, Option.bind_some, Text.cut?_eq_some_iff]
    exact ⟨by simp [path], (PackageUri.isAuthority_iff.mp key.authority_valid).2.1⟩
  · rw [Text.cutLast?_eq_some_iff]
    refine ⟨by simp, fun member => ?_⟩
    rw [Nat.toString_eq_repr, Nat.toList_repr] at member
    exact nomatch Nat.isDigit_of_mem_toDigits (by decide) (by decide) member

/-- Different keys have different texts. -/
theorem text_injective {first second : PackageKey} (same : first.text = second.text) :
    first = second := by
  obtain ⟨rest, path, cut, cutAt⟩ := first.exists_cuts
  obtain ⟨rest', path', cut', cutAt'⟩ := second.exists_cuts
  rw [same] at cut
  obtain ⟨authority, slot⟩ := Prod.mk.inj (Option.some.inj (cut.symm.trans cut'))
  rw [slot] at cutAt
  obtain ⟨rfl, digits⟩ := Prod.mk.inj (Option.some.inj (cutAt.symm.trans cutAt'))
  have major : first.major = second.major := by
    have chars := congrArg String.toList digits
    simp only [Nat.toString_eq_repr, Nat.toList_repr] at chars
    rw [← Text.valueOf_toDigits first.major, chars, Text.valueOf_toDigits]
  cases first
  cases second
  simp_all

end PackageKey

end PackageResolution

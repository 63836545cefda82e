import PackageResolution.Proofs.Uri.File
import PackageResolution.Proofs.Uri.Written

/-!
# Paths of files in identifiers

The path of a file is written into an identifier with escapes for the characters that an
identifier reads as marks or does not allow, and for all bytes outside ASCII.  So the identifier is
read back from its text and names the path again, except for the backslashes of the path: in their
place the identifier has slashes.
-/

namespace PackageResolution.Uri

variable {path : Path}

/-- No character is written into a path that an identifier does not allow or that ends the path. -/
theorem isPathCharacter_of_mem {text : String} {c : Char}
    (member : c ∈ (Percent.encodeWhere isEscapedInPath text).toList) :
    isIllegal c = false ∧ c ≠ '?' ∧ c ≠ '#' := by
  have digits : ∀ value < 16, isIllegal (Percent.digit value) = false ∧
      Percent.digit value ≠ '?' ∧ Percent.digit value ≠ '#' := by decide
  have plain : ∀ byte < 128, isEscapedInPath (UInt8.ofNat byte) = false →
      isIllegal (Char.ofNat byte) = false ∧ Char.ofNat byte ≠ '?' ∧ Char.ofNat byte ≠ '#' := by
    decide +kernel
  rcases Percent.mem_encodeWhere member with rfl | ⟨value, small, rfl⟩ | ⟨b, -, unescaped, rfl⟩
  · decide
  · exact digits value small
  · rw [Bool.or_eq_true, not_or, Bool.not_eq_true] at unescaped
    have ascii := (Percent.toNat_ofNat_of_not_escaped (by simpa using unescaped)).2
    exact plain b.toNat ascii (by rw [UInt8.ofNat_toNat]; exact unescaped.1)

/-- A slash at the start of a path is written as it is. -/
theorem beginsWith_encodeWhere {text : String} (rooted : Text.beginsWith '/' text = true) :
    Text.beginsWith '/' (Percent.encodeWhere isEscapedInPath text) = true := by
  obtain ⟨rest, rfl⟩ := Text.exists_of_beginsWith rooted
  have slash : Percent.encodeWhere isEscapedInPath (String.singleton '/') = "/" := by decide
  rw [Percent.encodeWhere_append, slash]
  simp [Text.beginsWith]

theorem beginsWith_replace {text : String} (rooted : Text.beginsWith '/' text = true) :
    Text.beginsWith '/' (Text.replace '\\' '/' text) = true := by
  obtain ⟨rest, rfl⟩ := Text.exists_of_beginsWith rooted
  simp [Text.replace, Text.beginsWith]

/-- The identifier of an absolute path. -/
def fileUri (path : Path) : Uri :=
  { scheme := some "file"
    authority := some ""
    path := Percent.encodeWhere isEscapedInPath (Text.replace '\\' '/' path.text)
    query := none
    fragment := none }

theorem ofPath_eq (absolute : path.isAbsolute = true) : ofPath path = .ok (fileUri path) :=
  if_pos absolute

theorem isWritten_fileUri (absolute : path.isAbsolute = true) : (fileUri path).IsWritten where
  legal := by
    have text : (fileUri path).text = "file://" ++ (fileUri path).path := by
      simp [Uri.text, fileUri, closed, marked]
    have start : IsLegal "file://" := by decide
    rw [text, IsLegal, String.toList_append, List.forall_mem_append]
    exact ⟨start, fun c member => (isPathCharacter_of_mem member).1⟩
  scheme := by
    rintro scheme ⟨⟩
    decide
  authority := by
    rintro authority ⟨⟩
    decide
  rooted _ := .inr (beginsWith_encodeWhere (beginsWith_replace absolute))
  path := ⟨fun member => (isPathCharacter_of_mem member).2.1 rfl,
    fun member => (isPathCharacter_of_mem member).2.2 rfl⟩
  query := nofun
  body := nofun
  colon := nofun
  single := nofun

theorem toPath_fileUri (absolute : path.isAbsolute = true) :
    (fileUri path).toPath = .ok (some ⟨Text.replace '\\' '/' path.text⟩) :=
  toPath_eq_some_iff.mpr ⟨rfl, beginsWith_encodeWhere (beginsWith_replace absolute), rfl,
    Percent.decode_encodeWhere (by decide) _⟩

/-- Every absolute path has an identifier, which is read back from its text and names the path with
slashes in place of its backslashes.  So it names the path itself exactly if no backslash stands in
it. -/
theorem ofPath_leads_back (absolute : path.isAbsolute = true) :
    ∃ uri, ofPath path = .ok uri ∧ parse uri.text = .ok uri ∧
      uri.toPath = .ok (some ⟨Text.replace '\\' '/' path.text⟩) ∧
      (uri.toPath = .ok (some path) ↔ '\\' ∉ path.text.toList) := by
  refine ⟨fileUri path, ofPath_eq absolute, parse_text (isWritten_fileUri absolute),
    toPath_fileUri absolute, ?_⟩
  rw [toPath_fileUri absolute]
  constructor
  · intro same
    have kept : (⟨Text.replace '\\' '/' path.text⟩ : Path) = path :=
      Option.some.inj (Except.ok.inj same)
    rw [← kept]
    exact Text.not_mem_replace (by decide) path.text
  · intro plain
    rw [Text.replace_eq_self plain]

/-- A path with marks, a blank and characters outside ASCII leads back to itself. -/
theorem marked_nest_leads_back :
    Path.isAbsolute ⟨"/küken/100% nest?#1"⟩ = true ∧
      ∃ uri, ofPath ⟨"/küken/100% nest?#1"⟩ = .ok uri ∧ parse uri.text = .ok uri ∧
        uri.toPath = .ok (some ⟨"/küken/100% nest?#1"⟩) := by
  have absolute : Path.isAbsolute ⟨"/küken/100% nest?#1"⟩ = true := by decide
  obtain ⟨uri, made, read, -, back⟩ := ofPath_leads_back absolute
  exact ⟨absolute, uri, made, read, back.mpr (by decide)⟩

/-- A file with a backslash in its name has the identifier of a file in a directory. -/
theorem backslash_leads_elsewhere :
    ∃ uri, ofPath ⟨"/birds\\nest"⟩ = .ok uri ∧ uri.toPath = .ok (some ⟨"/birds/nest"⟩) := by
  refine ⟨fileUri ⟨"/birds\\nest"⟩, rfl, ?_⟩
  decide +kernel

end PackageResolution.Uri

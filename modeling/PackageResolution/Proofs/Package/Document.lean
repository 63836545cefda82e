import PackageResolution.Package.Metadata
import PackageResolution.Proofs.Json.Decode
import PackageResolution.Proofs.Json.Written
import PackageResolution.Proofs.Text.Utf8

/-!
# Reading back metadata documents

The document that is written for the metadata of a package is read as the metadata.  The order
of the dependencies is that of the members, and what is left out of the document is absent.
-/

namespace PackageResolution

open Json (Decoder)

namespace Json

/-- The bytes of a text are read as the text. -/
theorem Input.ofBytes_toUTF8 (text : String) : ofBytes text.toUTF8 = ofText text := by
  have bytes : text.toUTF8.data.toList = Utf8.encode text := by
    rw [String.toUTF8_eq_toByteArray, ← String.utf8Encode_toList, List.utf8Encode,
      List.toList_data_toByteArray, Utf8.encode]
  rw [ofBytes, bytes, Utf8.pieces_encode, List.map_map, ofText]
  rfl

theorem itemsWritten_iff {items : List Json} :
    itemsWritten items = true ↔ ∀ item ∈ items, item.isWritten = true := by
  induction items with
  | nil => simp [itemsWritten]
  | cons item items inductionHypothesis => simp [itemsWritten, inductionHypothesis]

theorem isWritten_ofMembers {members : List (String × Json)} :
    (ofMembers members).isWritten = true ↔ ∀ member ∈ members, member.2.isWritten = true := by
  rw [ofMembers, isWritten]
  induction members with
  | nil => simp [membersWritten]
  | cons member members inductionHypothesis => simp [membersWritten, inductionHypothesis]

end Json

namespace Checksum

theorem decoder_toJson (checksum : Checksum) {depth : Nat} (deep : 1 < depth) :
    decoder depth checksum.toJson = .ok checksum := by
  have given : Decoder.fields ["sha256"] depth checksum.toJson =
      .ok ⟨depth - 1, [("sha256", .ofText checksum.sha256)]⟩ :=
    Decoder.fields_ofMembers (.refl _) (by decide) deep
  rw [decoder, given]
  rfl

end Checksum

namespace PackageDependency

theorem isWritten_toJson (dependency : PackageDependency) :
    dependency.toJson.isWritten = true := by
  obtain ⟨uri, _ | checksum⟩ := dependency <;> rfl

theorem decoder_toJson (dependency : PackageDependency) {depth : Nat} (deep : 2 < depth) :
    decoder depth dependency.toJson = .ok dependency := by
  obtain ⟨uri, _ | checksum⟩ := dependency
  · have given : Decoder.fields ["uri", "checksums"] depth (toJson ⟨uri, none⟩) =
        .ok ⟨depth - 1, [("uri", .ofText uri)]⟩ :=
      Decoder.fields_ofMembers (by simp) (by decide) (by omega)
    rw [decoder, given]
    rfl
  · have given : Decoder.fields ["uri", "checksums"] depth (toJson ⟨uri, some checksum⟩) =
        .ok ⟨depth - 1, [("uri", .ofText uri), ("checksums", checksum.toJson)]⟩ :=
      Decoder.fields_ofMembers (by simp) (by decide) (by omega)
    have sum : Decoder.nullable Checksum.decoder (depth - 1) checksum.toJson =
        .ok (some checksum) := by
      change (Checksum.decoder _ _).map some = _
      rw [checksum.decoder_toJson (by omega)]
      rfl
    rw [decoder, given, Result.ok_bind, Decoder.required_eq_ok rfl rfl, Result.ok_bind,
      Decoder.optional_eq_ok rfl sum]
    rfl

end PackageDependency

namespace PackageMetadata

theorem keys_textMember (name : String) (text : Option String) :
    (Association.keys (textMember name text)).Sublist [name] := by
  cases text <;> simp [textMember]

theorem lookup_textMember (name other : String) (text : Option String) :
    (textMember name text).lookup other = if other = name then text.map Json.ofText else none := by
  cases text with
  | none => simp [textMember]
  | some text =>
      by_cases same : other = name
      · simp [textMember, same]
      · simp [textMember, List.lookup_cons, beq_eq_false_iff_ne.mpr same, same]

theorem keys_authorsMember (authors : List String) :
    (Association.keys (authorsMember authors)).Sublist ["authors"] := by
  unfold authorsMember
  split <;> simp

theorem lookup_authorsMember (authors : List String) (other : String) :
    (authorsMember authors).lookup other =
      if other = "authors" ∧ authors ≠ [] then some (.array (authors.map Json.ofText))
      else none := by
  unfold authorsMember
  by_cases none : authors = []
  · simp [none]
  · by_cases same : other = "authors"
    · simp [none, same]
    · simp [none, List.lookup_cons, beq_eq_false_iff_ne.mpr same, same]

/-- The members are those of the record, in its order. -/
theorem keys_members (metadata : PackageMetadata) :
    (Association.keys metadata.members).Sublist fieldNames := by
  have parts : fieldNames = ["name", "packageUri", "version", "packageZipUrl",
      "packageZipChecksums", "dependencies"] ++ ["sourceCodeUrlScheme"] ++ ["sourceCode"] ++
      ["documentation"] ++ ["license"] ++ ["authors"] ++ ["issueTracker"] ++ ["description"] :=
    rfl
  simp only [members, Association.keys, List.map_append, parts]
  repeat' apply List.Sublist.append
  case hl.hl.hl.hl.hl.hl.hl => exact .refl _
  case hl.hl.hr => exact keys_authorsMember _
  all_goals exact keys_textMember _ _

theorem isWritten_of_mem_textMember {name : String} {text : Option String}
    {member : String × Json} (among : member ∈ textMember name text) :
    member.2.isWritten = true := by
  cases text with
  | none => exact nomatch among
  | some text =>
      rw [List.mem_singleton.mp among]
      rfl

theorem isWritten_of_mem_authorsMember {authors : List String} {member : String × Json}
    (among : member ∈ authorsMember authors) : member.2.isWritten = true := by
  unfold authorsMember at among
  split at among
  · exact nomatch among
  · rw [List.mem_singleton.mp among]
    apply Json.itemsWritten_iff.mpr
    intro item listed
    obtain ⟨author, -, rfl⟩ := List.mem_map.mp listed
    rfl

theorem isWritten_dependencies (metadata : PackageMetadata) :
    (Json.ofMembers (metadata.dependencies.map fun entry =>
      (entry.1, entry.2.toJson))).isWritten = true := by
  apply Json.isWritten_ofMembers.mpr
  intro member among
  obtain ⟨entry, -, rfl⟩ := List.mem_map.mp among
  exact entry.2.isWritten_toJson

theorem isWritten_toJson (metadata : PackageMetadata) : metadata.toJson.isWritten = true := by
  apply Json.isWritten_ofMembers.mpr
  intro member among
  simp only [members, List.mem_append] at among
  rcases among with ((((((required | scheme) | source) | documentation) | license) | authors) |
    issueTracker) | description
  · simp only [List.mem_cons, List.not_mem_nil, or_false] at required
    rcases required with rfl | rfl | rfl | rfl | rfl | rfl
    case inr.inr.inr.inr.inr => exact metadata.isWritten_dependencies
    all_goals rfl
  case inl.inl.inr => exact isWritten_of_mem_authorsMember authors
  all_goals exact isWritten_of_mem_textMember ‹_›

/-- The fields that are given are those that are not absent. -/
theorem lookup_members (metadata : PackageMetadata) :
    metadata.members.lookup "sourceCodeUrlScheme" =
        metadata.sourceCodeUrlScheme.map Json.ofText ∧
    metadata.members.lookup "sourceCode" = metadata.sourceCode.map Json.ofText ∧
    metadata.members.lookup "documentation" = metadata.documentation.map Json.ofText ∧
    metadata.members.lookup "license" = metadata.license.map Json.ofText ∧
    metadata.members.lookup "authors" = (authorsMember metadata.authors).lookup "authors" ∧
    metadata.members.lookup "issueTracker" = metadata.issueTracker.map Json.ofText ∧
    metadata.members.lookup "description" = metadata.description.map Json.ofText := by
  refine ⟨?_, ?_, ?_, ?_, ?_, ?_, ?_⟩ <;>
    simp [members, List.lookup_append, lookup_textMember, lookup_authorsMember, List.lookup_cons]

theorem decoder_toJson (metadata : PackageMetadata)
    (apart : (Association.keys metadata.dependencies).Nodup) {depth : Nat} (deep : 4 < depth) :
    decoder depth metadata.toJson = .ok metadata := by
  have given : Decoder.fields fieldNames depth metadata.toJson =
      .ok ⟨depth - 1, metadata.members⟩ :=
    Decoder.fields_ofMembers metadata.keys_members (by decide) (by omega)
  have required (name content : String)
      (found : metadata.members.lookup name = some (Json.ofText content)) :
      Decoder.Fields.required ⟨depth - 1, metadata.members⟩ name Decoder.text = .ok content :=
    Decoder.required_eq_ok found rfl
  have name := required "name" metadata.name rfl
  have packageUri := required "packageUri" metadata.packageUri rfl
  have version := required "version" metadata.version rfl
  have archiveUrl := required "packageZipUrl" metadata.archiveUrl rfl
  have sum : Decoder.Fields.required ⟨depth - 1, metadata.members⟩ "packageZipChecksums"
      Checksum.decoder = .ok metadata.archiveChecksum :=
    Decoder.required_eq_ok rfl (metadata.archiveChecksum.decoder_toJson (by omega))
  have dependencies : Decoder.Fields.optional ⟨depth - 1, metadata.members⟩ "dependencies"
      (Decoder.map PackageDependency.decoder) [] = .ok metadata.dependencies :=
    Decoder.optional_eq_ok rfl (Decoder.map_ofMembers (by omega) apart
      fun entry _ => entry.2.decoder_toJson (by omega))
  obtain ⟨scheme, sourceCode, documentation, license, listed, issueTracker, description⟩ :=
    metadata.lookup_members
  have authors : Decoder.Fields.optional ⟨depth - 1, metadata.members⟩ "authors"
      (Decoder.list Decoder.text) [] = .ok metadata.authors := by
    rw [lookup_authorsMember] at listed
    by_cases none : metadata.authors = []
    · rw [Decoder.optional_of_missing (by simp [listed, none]), none]
    · have read : Decoder.list Decoder.text (depth - 1)
          (.array (metadata.authors.map Json.ofText)) = .ok metadata.authors :=
        Decoder.list_array (by omega) fun _ _ => rfl
      exact Decoder.optional_eq_ok (by simp [listed, none]) read
  simp only [decoder, given, Result.ok_bind, name, packageUri, version, archiveUrl, sum,
    dependencies, authors, Decoder.optional_text scheme, Decoder.optional_text sourceCode,
    Decoder.optional_text documentation, Decoder.optional_text license,
    Decoder.optional_text issueTracker, Decoder.optional_text description]
  rfl

/-- The document that is written for metadata is read as the metadata. -/
theorem parse_text (metadata : PackageMetadata)
    (apart : (Association.keys metadata.dependencies).Nodup) :
    parse metadata.text.toUTF8 = .ok metadata := by
  rw [parse, Decoder.run, Json.Input.ofBytes_toUTF8, text,
    Json.parse?_text metadata.isWritten_toJson]
  exact metadata.decoder_toJson apart (by decide)

end PackageMetadata

end PackageResolution

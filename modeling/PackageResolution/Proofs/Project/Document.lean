import PackageResolution.Project.Manifest
import PackageResolution.Proofs.Package.Document

/-!
# Reading back manifests

The text of a manifest is read as the manifest, with its entries in their order.  An entry is
read as a whole before its kind is looked at, and what is written of it is short and plain, so
nothing in it stands in the way.
-/

namespace PackageResolution

open Json (Decoder)

namespace ResolvedDependency

theorem isWritten_toJson (dependency : ResolvedDependency) :
    dependency.toJson.isWritten = true := by
  cases dependency <;> rfl

/-- An entry can be read as a whole. -/
theorem isPlain_toJson (dependency : ResolvedDependency) {depth : Nat} (deep : 2 < depth) :
    dependency.toJson.isPlain depth = true := by
  have outer : 1 < depth := by omega
  have inner : 1 < depth - 1 := by omega
  cases dependency <;>
    simp [toJson, Checksum.toJson, Json.ofMembers, Json.ofText, Json.isPlain, Json.membersPlain,
      outer, inner]

theorem decoder_toJson (dependency : ResolvedDependency) {depth : Nat} (deep : 2 < depth) :
    decoder depth dependency.toJson = .ok dependency := by
  rw [decoder, Decoder.whole, if_pos (dependency.isPlain_toJson deep)]
  cases dependency with
  | remote uri checksum =>
      have given : Decoder.fields ["uri", "checksums"] depth
          (.ofMembers [("uri", .ofText uri), ("checksums", checksum.toJson)]) =
            .ok ⟨depth - 1, [("uri", .ofText uri), ("checksums", checksum.toJson)]⟩ :=
        Decoder.fields_ofMembers (by simp) (by decide) (by omega)
      have sum : Decoder.Fields.required
          ⟨depth - 1, [("uri", .ofText uri), ("checksums", checksum.toJson)]⟩ "checksums"
            Checksum.decoder = .ok checksum :=
        Decoder.required_eq_ok rfl (checksum.decoder_toJson (by omega))
      change ofKind "remote" depth
        (.ofMembers [("uri", .ofText uri), ("checksums", checksum.toJson)]) = _
      rw [ofKind, if_pos rfl, given, Result.ok_bind, Decoder.required_eq_ok rfl rfl,
        Result.ok_bind, sum]
      rfl
  | localProject uri path =>
      have given : Decoder.fields ["uri", "path"] depth
          (.ofMembers [("uri", .ofText uri), ("path", .ofText path)]) =
            .ok ⟨depth - 1, [("uri", .ofText uri), ("path", .ofText path)]⟩ :=
        Decoder.fields_ofMembers (by simp) (by decide) (by omega)
      change ofKind "local" depth (.ofMembers [("uri", .ofText uri), ("path", .ofText path)]) = _
      rw [ofKind, if_neg (by decide), if_pos rfl, given]
      rfl

end ResolvedDependency

namespace Manifest

theorem isWritten_toJson (manifest : Manifest) : manifest.toJson.isWritten = true := by
  apply Json.isWritten_ofMembers.mpr
  intro member among
  rcases List.mem_pair.mp among with rfl | rfl
  · rfl
  · apply Json.isWritten_ofMembers.mpr
    intro member among
    obtain ⟨entry, -, rfl⟩ := List.mem_map.mp among
    exact entry.2.isWritten_toJson

theorem decoder_toJson (manifest : Manifest) (current : manifest.schemaVersion = currentSchema)
    (apart : (Association.keys manifest.dependencies).Nodup) {depth : Nat} (deep : 4 < depth) :
    decoder depth manifest.toJson = .ok manifest := by
  obtain ⟨version, dependencies⟩ := manifest
  obtain rfl : version = currentSchema := current
  have given : Decoder.fields ["schemaVersion", "resolvedDependencies"] depth
      (toJson ⟨currentSchema, dependencies⟩) = .ok ⟨depth - 1, _⟩ :=
    Decoder.fields_ofMembers (.refl _) (by decide) (by omega)
  have entries := @Decoder.map_ofMembers _ ResolvedDependency.decoder ResolvedDependency.toJson
    (depth - 1) (by omega) dependencies apart fun entry _ => entry.2.decoder_toJson (by omega)
  rw [decoder, given, Result.ok_bind, Decoder.required_eq_ok rfl rfl, Result.ok_bind,
    Decoder.required_eq_ok rfl entries]
  rfl

/-- The text of a manifest is read as the manifest. -/
theorem parse_text (manifest : Manifest) (current : manifest.schemaVersion = currentSchema)
    (apart : (Association.keys manifest.dependencies).Nodup) :
    parse manifest.text = .ok manifest := by
  have read : Decoder.run decoder (Json.Input.ofText manifest.text) = .ok manifest := by
    rw [Decoder.run, text, Json.parse?_text manifest.isWritten_toJson]
    exact manifest.decoder_toJson current apart (by decide)
  rw [parse, read]
  exact if_pos current

end Manifest

/-! ## Round trip -/

/-- Manifests and metadata survive being written and read: every entry, dependency and text comes
back, in the same order. -/
theorem documents_read_back :
    (∀ manifest : Manifest, manifest.schemaVersion = Manifest.currentSchema →
      (Association.keys manifest.dependencies).Nodup →
        Manifest.parse manifest.text = .ok manifest) ∧
    ∀ metadata : PackageMetadata, (Association.keys metadata.dependencies).Nodup →
      PackageMetadata.parse metadata.text.toUTF8 = .ok metadata := by
  constructor
  · intro manifest current apart
    exact manifest.parse_text current apart
  · intro metadata apart
    exact metadata.parse_text apart

/-- Two entries whose keys and texts have to be escaped, and metadata that leaves fields out. -/
theorem documents_read_back_escaped :
    let first := ResolvedDependency.remote "a\x22\\b" ⟨"\x00\x1f"⟩
    let second := ResolvedDependency.localProject "\x7f\n" "..\\é😀"
    let manifest : Manifest := .ofEntries [("z\t\x22", first), ("", second)]
    let metadata : PackageMetadata :=
      { name := "\x08\x0c", packageUri := "\\u0041", version := "1.0.0", archiveUrl := "\r",
        archiveChecksum := ⟨"\x22"⟩,
        dependencies := [("b\x01", ⟨"\\", none⟩), ("a", ⟨"/", some ⟨""⟩⟩)],
        sourceCodeUrlScheme := none, sourceCode := some "", documentation := none,
        license := some "\x22\x22", authors := ["", "\n"], issueTracker := none,
        description := none }
    (manifest.schemaVersion = Manifest.currentSchema ∧
      (Association.keys manifest.dependencies).Nodup ∧
      Manifest.parse manifest.text = .ok manifest) ∧
    (Association.keys metadata.dependencies).Nodup ∧
    PackageMetadata.parse metadata.text.toUTF8 = .ok metadata := by
  intro first second manifest metadata
  have current : manifest.schemaVersion = Manifest.currentSchema := rfl
  have apartEntries : (Association.keys manifest.dependencies).Nodup := by
    simp [manifest, Manifest.ofEntries, Association.keys]
  have apartDependencies : (Association.keys metadata.dependencies).Nodup := by
    simp [metadata, Association.keys]
  constructor
  · exact ⟨current, apartEntries, documents_read_back.1 manifest current apartEntries⟩
  · exact ⟨apartDependencies, documents_read_back.2 metadata apartDependencies⟩

end PackageResolution

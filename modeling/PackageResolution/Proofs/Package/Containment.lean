import PackageResolution.Project.Manifest
import PackageResolution.Proofs.Path.Normalization
import PackageResolution.Proofs.Result
import PackageResolution.Proofs.Text.Percent
import PackageResolution.Proofs.Uri.DotSegments
import PackageResolution.Storage.Basic

/-!
# Where the files of assets lie

The path of an asset is freed of dot segments before its escapes are decoded.  So an asset
lies below the root of its package, wherever that is, exactly if its decoded path is
confined.  A path without escapes always is.  A path in which the dots or the slashes of a
`..` or of an absolute path are escaped may not be.
-/

namespace PackageResolution

/-! ## Paths without escapes -/

theorem PackageAsset.ofPath_eq_ok_iff {package : PackageUri} {path : String}
    {asset : PackageAsset} : ofPath package path = .ok asset ↔
      Text.beginsWith '/' path = true ∧ UriPath.normalize? path = some asset.path ∧
        asset.package = package := by
  constructor
  · intro made
    unfold ofPath at made
    split at made
    · rename_i rooted
      split at made
      · rename_i found
        obtain rfl := Except.ok.inj made
        exact ⟨rooted, found, rfl⟩
      · exact nomatch made
    · exact nomatch made
  · rintro ⟨rooted, found, rfl⟩
    rw [ofPath, if_pos rooted, found]

theorem PackageAsset.beginsWith_path {package : PackageUri} {path : String}
    {asset : PackageAsset} (made : ofPath package path = .ok asset) :
    Text.beginsWith '/' asset.path = true := by
  rcases ofPath_eq_ok_iff.mp made with ⟨rooted, found, -⟩
  rw [← UriPath.removeDots_of_normalize? found]
  exact UriPath.beginsWith_removeDots rooted

/-- A path that names an asset of one package names the same asset of every other one. -/
theorem PackageAsset.ofPath_path {package other : PackageUri} {path : String}
    {asset : PackageAsset} (made : ofPath package path = .ok asset) :
    ofPath other asset.path = .ok { package := other, path := asset.path } := by
  rcases ofPath_eq_ok_iff.mp made with ⟨rooted, found, -⟩
  exact ofPath_eq_ok_iff.mpr
    ⟨beginsWith_path made, UriPath.normalize?_of_normalize? rooted found, rfl⟩

theorem PackageAsset.isPlain_of_parse {text : String} {asset : PackageAsset}
    (read : parse text = .ok asset) {piece : String}
    (member : piece ∈ Text.fields '/' asset.path) : UriPath.IsPlain piece := by
  unfold parse at read
  split at read
  · exact nomatch read
  split at read
  · exact nomatch read
  split at read
  · exact nomatch read
  rename_i made
  obtain rfl := Except.ok.inj read
  obtain ⟨rooted, found, -⟩ := ofPath_eq_ok_iff.mp made
  rw [← UriPath.removeDots_of_normalize? found] at member
  exact UriPath.isPlain_of_removeDots rooted member

/-- An asset whose path is written without escapes does not leave its package. -/
theorem PackageAsset.isConfined_of_unescaped {text : String} {asset : PackageAsset}
    (read : parse text = .ok asset) (unescaped : '%' ∉ asset.path.toList) :
    Path.IsConfined ⟨asset.relativePath⟩ := by
  have trimmed : '%' ∉ (Text.trim '/' asset.path).toList := fun member =>
    unescaped (Text.mem_of_mem_trim member)
  rw [relativePath, Percent.decodeLossy_eq_self trimmed]
  refine ⟨Text.beginsWith_trim '/' asset.path, ?_⟩
  rw [Path.steps_trim]
  refine Path.staysBelow_of_not_mem (Path.root_not_mem_steps _) (fun climbs => ?_) 0
  rw [Path.parent_mem_steps_iff] at climbs
  exact (isPlain_of_parse read climbs).2 rfl

/-! ## Assets on disk -/

namespace StoredPackage

/-- An asset lies below the root of every package exactly if its path is confined. -/
theorem placeOf_liesWithin_iff {path : String} :
    (∀ root, (placeOf root path).LiesWithin root) ↔ Path.IsConfined ⟨path⟩ := by
  by_cases empty : path = ""
  · subst empty
    exact iff_of_true (fun root => List.prefix_refl _) (by decide)
  · simp only [placeOf, if_neg empty]
    exact Path.liesWithin_iff_isConfined

end StoredPackage

/-- A local project is asked for an asset as a package in its directory would be. -/
theorem Manifest.resolveAsset_localProject {manifest : Manifest} {asset : PackageAsset}
    {name path : String}
    (settled : manifest.find? asset.package.key.text = some (.localProject name path))
    (directory : Path) :
    manifest.resolveAsset asset directory =
      .ok (.localFile (StoredPackage.placeOf (directory.join ⟨path⟩) asset.relativePath)) := by
  simp only [resolveAsset, settled, StoredPackage.placeOf]
  split <;> rfl

/-- Wherever a package or a local project is, what an asset of it stands for lies in its
directory exactly if the decoded path of the asset is confined; it is if the path is written
without escapes. -/
theorem asset_stays_in_package_iff_confined {text : String} {asset : PackageAsset}
    (read : PackageAsset.parse text = .ok asset) :
    ((∀ root, (StoredPackage.placeOf root asset.relativePath).LiesWithin root) ↔
        Path.IsConfined ⟨asset.relativePath⟩) ∧
      ((∀ (manifest : Manifest) (directory file : Path) (name path : String),
          manifest.find? asset.package.key.text = some (.localProject name path) →
          manifest.resolveAsset asset directory = .ok (.localFile file) →
          file.LiesWithin (directory.join ⟨path⟩)) ↔
        Path.IsConfined ⟨asset.relativePath⟩) ∧
      ('%' ∉ asset.path.toList → Path.IsConfined ⟨asset.relativePath⟩) := by
  refine ⟨StoredPackage.placeOf_liesWithin_iff, ?_, PackageAsset.isConfined_of_unescaped read⟩
  rw [← StoredPackage.placeOf_liesWithin_iff]
  constructor
  · intro inside root
    -- a manifest that settles the asset to the directory `root` itself
    let manifest : Manifest :=
      { schemaVersion := 1
        dependencies := [(asset.package.key.text, .localProject "" root.text)] }
    have settled : manifest.find? asset.package.key.text = some (.localProject "" root.text) :=
      List.lookup_cons_self
    have there : Path.join ⟨""⟩ ⟨root.text⟩ = root := if_pos (by simp)
    exact there ▸ inside manifest ⟨""⟩ _ "" root.text settled
      (Manifest.resolveAsset_localProject settled ⟨""⟩)
  · intro inside manifest directory file name path settled resolved
    rw [Manifest.resolveAsset_localProject settled] at resolved
    obtain rfl := ResolvedAsset.localFile.inj (Except.ok.inj resolved)
    exact inside _

theorem bird_stays_in_package :
    ∃ asset, PackageAsset.parse "package://localhost:0/birds@0.5.0#/catalog/Bird.pkl" =
        .ok asset ∧
      ∀ root, (StoredPackage.placeOf root asset.relativePath).LiesWithin root := by
  have parts : (PackageAsset.parse
      "package://localhost:0/birds@0.5.0#/catalog/Bird.pkl").map PackageAsset.path =
        .ok "/catalog/Bird.pkl" := by decide +kernel
  obtain ⟨asset, read, path⟩ := Result.map_eq_ok_iff.mp parts
  have unescaped : '%' ∉ asset.path.toList := by
    rw [path]
    simp
  have stays := asset_stays_in_package_iff_confined read
  exact ⟨asset, read, stays.1.mpr (stays.2.2 unescaped)⟩

/-- Escaped dots are decoded after the path was freed of dot segments, so they lead out of
the directory of a package and out of that of a local project. -/
theorem escaped_dots_leave_package :
    ∃ asset, PackageAsset.parse "projectpackage://localhost:0/birds@0.5.0#/%2e%2e/secret" =
        .ok asset ∧
      StoredPackage.placeOf ⟨"/cache/birds"⟩ asset.relativePath = ⟨"/cache/birds/../secret"⟩ ∧
      ¬ Path.LiesWithin ⟨"/cache/birds/../secret"⟩ ⟨"/cache/birds"⟩ ∧
      Manifest.resolveAsset
          ⟨1, [("package://localhost:0/birds@0", .localProject "" "../birds")]⟩
          asset ⟨"/work/app"⟩ =
        .ok (.localFile ⟨"/work/app/../birds/../secret"⟩) ∧
      ¬ Path.LiesWithin ⟨"/work/app/../birds/../secret"⟩
        (Path.join ⟨"/work/app"⟩ ⟨"../birds"⟩) := by
  have parts : (PackageAsset.parse
      "projectpackage://localhost:0/birds@0.5.0#/%2e%2e/secret").map
        (fun asset => (asset.package.key.text, asset.path)) =
      .ok ("package://localhost:0/birds@0", "/%2e%2e/secret") := by decide +kernel
  obtain ⟨asset, read, fields⟩ := Result.map_eq_ok_iff.mp parts
  obtain ⟨key, path⟩ := Prod.mk.inj fields
  have bytes : Percent.decodeBytes (Utf8.encode (Text.trim '/' "/%2e%2e/secret")) =
      Utf8.encode "../secret" := by decide
  have decoded : asset.relativePath = "../secret" := by
    rw [PackageAsset.relativePath, Percent.decodeLossy, path, bytes, Utf8.decodeLossy_encode]
  refine ⟨asset, read, by rw [decoded]; rfl, by decide, ?_, by decide⟩
  simp only [Manifest.resolveAsset, key, decoded]
  rfl

end PackageResolution

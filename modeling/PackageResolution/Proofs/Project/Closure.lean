import PackageResolution.Proofs.Package.Containment
import PackageResolution.Proofs.Project.Settlement

/-!
# Manifests are closed

The manifest of a run that succeeds answers whatever the run required: the place of each
required package is settled to a project, or to a version that is at least the required
one.  In particular it answers what the packages that it records require in their turn, so
nothing that is selected lacks a dependency.

An answer is not only an entry.  An asset of the package is found through the entry in
exactly the version that is recorded, pinned to the recorded checksum, at the same path.
-/

namespace PackageResolution

/-! ## Assets of recorded packages -/

namespace Manifest

variable {manifest : Manifest}

/-- The asset that a recorded package has for an asset of its place: the one at the same
path, pinned to the recorded checksum. -/
def recordedAsset (selected : PackageUri) (checksum : Checksum) (asset : PackageAsset) :
    PackageAsset :=
  { package := { selected.toPackage with pin := some checksum }, path := asset.path }

/-- An asset is found in the package that is recorded for its place. -/
theorem resolveAsset_remote {package selected : PackageUri} {path uri : String}
    {checksum : Checksum} {asset : PackageAsset}
    (written : manifest.find? package.key.text = some (.remote uri checksum))
    (read : PackageUri.parse uri = .ok selected)
    (made : PackageAsset.ofPath package path = .ok asset) (directory : Path) :
    manifest.resolveAsset asset directory =
      .ok (.remote (recordedAsset selected checksum asset)) := by
  rcases PackageAsset.ofPath_eq_ok_iff.mp made with ⟨-, -, place⟩
  simp only [resolveAsset, place, written, read, PackageAsset.ofPath_path made]
  rfl

/-- That a manifest answers a requirement for a package.  It settles the place of the
package to a project, or to a version that is at least the required one; every asset of the
package, with a pin or without, is then found in that version. -/
def Answers (manifest : Manifest) (required : PackageUri) : Prop :=
  ∃ entry, manifest.find? required.key.text = some entry ∧
    ∀ uri checksum, entry = .remote uri checksum →
      ∃ selected, PackageUri.parse uri = .ok selected ∧ selected.key = required.key ∧
        selected.version.atLeast required.version = true ∧
        ∀ package path asset directory, package.key = required.key →
          PackageAsset.ofPath package path = .ok asset →
            manifest.resolveAsset asset directory =
              .ok (.remote (recordedAsset selected checksum asset))

end Manifest

/-! ## The manifest of a run -/

namespace Project

variable {σ : Type} {source : Source (Stateful σ)} {project : Project} {manifest : Manifest}
  {before after : σ}

/-- The text that is recorded for a package that was chosen is read as the package. -/
theorem parse_recorded (package : PackageUri) :
    PackageUri.parse package.unpinned.toProjectPackage.text =
      .ok package.unpinned.toProjectPackage := by
  apply PackageUri.parse_text
  intro pin held
  exact nomatch held

/-- Every requirement of a run is answered. -/
theorem answers_required (resolved : project.resolve source before = .ok (manifest, after))
    {required : PackageUri}
    (requires : Told.Requires project (project.told source before) required) :
    manifest.Answers required := by
  rcases resolve_kept resolved with ⟨finish, root, kept, settles, -, entries⟩
  rcases settles required requires with ⟨choice, found, meets⟩
  rcases entries required.key with ⟨absent, -⟩ | ⟨other, entry, taken, records, written⟩
  · exact nomatch absent.symm.trans found
  obtain rfl := Option.some.inj (taken.symm.trans found)
  refine ⟨entry, written, ?_⟩
  rintro uri checksum rfl
  cases other with
  | localProject package directory =>
      rcases Result.bind_eq_ok_iff.mp records with ⟨path, -, made⟩
      exact nomatch made
  | remote package sum =>
      rcases ResolvedDependency.remote.inj (Except.ok.inj records) with ⟨rfl, rfl⟩
      rcases kept.chosen_remote _ package sum found with ⟨chosen, -, -, place, rfl, -⟩
      have read := parse_recorded chosen
      refine ⟨_, read, place, meets.1, ?_⟩
      intro asked path asset directory same made
      rw [← same] at written
      exact Manifest.resolveAsset_remote written read made directory

/-- What is recorded for a package of a server was described in the run, with the checksum
that is recorded. -/
theorem described_of_recorded
    (resolved : project.resolve source before = .ok (manifest, after)) {key : PackageKey}
    {uri : String} {checksum : Checksum}
    (written : manifest.find? key.text = some (.remote uri checksum)) :
    ∃ package description, uri = package.toProjectPackage.text ∧ package.key = key ∧
      .described package description ∈ project.told source before ∧
      description.checksum = checksum := by
  rcases resolve_kept resolved with ⟨finish, root, kept, -, -, entries⟩
  rcases entries key with ⟨-, absent⟩ | ⟨choice, entry, found, records, present⟩
  · exact nomatch absent.symm.trans written
  obtain rfl := Option.some.inj (present.symm.trans written)
  cases choice with
  | localProject package directory =>
      rcases Result.bind_eq_ok_iff.mp records with ⟨path, -, made⟩
      exact nomatch made
  | remote package sum =>
      rcases ResolvedDependency.remote.inj (Except.ok.inj records) with ⟨rfl, rfl⟩
      rcases kept.chosen_remote key package sum found with
        ⟨chosen, description, -, place, rfl, told, same⟩
      exact ⟨chosen.unpinned, description, rfl, place, told, same⟩

/-- What a described package lists is required. -/
theorem requires_listed {told : List Told} {package : PackageUri}
    {description : DescribedPackage} (described : .described package description ∈ told)
    {entry : String × PackageDependency} (listed : entry ∈ description.metadata.dependencies)
    {required : PackageUri} (named : entry.2.package = .ok required) :
    Told.Requires project told required := by
  refine ⟨.listed entry.2, ?_, named⟩
  have raised : Requirement.listed entry.2 ∈ Requirement.ofMetadata description.metadata :=
    List.mem_map_of_mem listed
  exact List.mem_append_right _ (List.mem_flatMap.mpr ⟨_, described, raised⟩)

/-- The manifest answers whatever is required by the root, by a project that was visited or
by a package that was described; and each package that it records was described in the run,
so whatever the recorded package lists is answered too. -/
theorem resolve_closed (resolved : project.resolve source before = .ok (manifest, after)) :
    (∀ required, Told.Requires project (project.told source before) required →
      manifest.Answers required) ∧
    ∀ (key : PackageKey) uri checksum, manifest.find? key.text = some (.remote uri checksum) →
      ∃ package description, uri = package.toProjectPackage.text ∧ package.key = key ∧
        .described package description ∈ project.told source before ∧
        description.checksum = checksum ∧
        ∀ entry ∈ description.metadata.dependencies, ∀ required,
          entry.2.package = .ok required → manifest.Answers required := by
  constructor
  · intro required requires
    exact answers_required resolved requires
  · intro key uri checksum written
    rcases described_of_recorded resolved written with
      ⟨package, description, rfl, place, described, same⟩
    refine ⟨package, description, rfl, place, described, same, ?_⟩
    intro entry listed required named
    exact answers_required resolved (requires_listed described listed named)

/-- The birds that the seeds ask for are answered by the entry of the birds. -/
theorem resolve_closed_birds :
    ∃ manifest, Aviary.project.resolve Aviary.source () = .ok (manifest, ()) ∧
      manifest.Answers Aviary.pinnedBirds := by
  rcases Result.map_eq_ok_iff.mp Aviary.resolve_birds with ⟨⟨manifest, ⟨⟩⟩, resolved, written⟩
  have described : Told.described
      (Aviary.release "/seeds" (by decide) 1 (by decide) none)
      ⟨Aviary.metadata [("birds", Aviary.listedBirds)], ⟨"5e"⟩⟩ ∈
        Aviary.project.told Aviary.source () := by decide +kernel
  have named : Aviary.listedBirds.package = .ok Aviary.pinnedBirds := by decide +kernel
  have requires : Told.Requires Aviary.project (Aviary.project.told Aviary.source ())
      Aviary.pinnedBirds :=
    requires_listed described List.mem_cons_self named
  exact ⟨manifest, resolved, (resolve_closed resolved).1 _ requires⟩

end Project

end PackageResolution

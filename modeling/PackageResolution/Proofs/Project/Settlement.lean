import PackageResolution.Proofs.Package.Identifier
import PackageResolution.Proofs.Project.Course
import PackageResolution.Proofs.Project.Selection

/-!
# The manifest of a resolution

The manifest of a run that succeeds has an entry for exactly the places that something was
required for or that a visited project publishes.  A visited project has its place whatever
versions are required.  Every other place is settled to the greatest version required for
it, and every pin of that version agrees with the checksum that is recorded.
-/

namespace PackageResolution

/-! ## Entries and choices -/

namespace Manifest

/-- The entries of a manifest are found where the choices are, since different keys have
different texts. -/
theorem lookup_of_mapM {root : Uri} {chosen : List (PackageKey × Choice)}
    {entries : List (String × ResolvedDependency)}
    (made : chosen.mapM (fun (pair : PackageKey × Choice) => do
      return (pair.1.text, ← pair.2.entry root)) = (.ok entries : Result _))
    (key : PackageKey) :
    (chosen.lookup key = none ∧ entries.lookup key.text = none) ∨
      ∃ choice entry, chosen.lookup key = some choice ∧ choice.entry root = .ok entry ∧
        entries.lookup key.text = some entry := by
  induction chosen generalizing entries with
  | nil =>
      rw [List.mapM_nil, Result.pure_eq_ok_iff] at made
      exact .inl ⟨rfl, made ▸ rfl⟩
  | cons pair chosen inductionHypothesis =>
      obtain ⟨first, choice⟩ := pair
      rw [List.mapM_cons, Result.bind_eq_ok_iff] at made
      obtain ⟨written, writes, joins⟩ := made
      obtain ⟨others, makes, joined⟩ := Result.bind_eq_ok_iff.mp joins
      obtain ⟨entry, recorded, written_eq⟩ := Result.bind_eq_ok_iff.mp writes
      rw [Result.pure_eq_ok_iff] at joined written_eq
      subst joined written_eq
      by_cases same : key = first
      · subst same
        exact .inr ⟨choice, entry, List.lookup_cons_self, recorded, List.lookup_cons_self⟩
      · have differs : (key == first) = false := beq_eq_false_iff_ne.mpr same
        have differs' : (key.text == first.text) = false :=
          beq_eq_false_iff_ne.mpr fun equal => same (PackageKey.text_injective equal)
        rw [List.lookup_cons, differs, List.lookup_cons, differs']
        exact inductionHypothesis makes

/-- A place has an entry exactly if it was settled, and the entry is that of the choice. -/
theorem find?_ofChoices {directory : Path} {chosen : List (PackageKey × Choice)}
    {manifest : Manifest} (made : ofChoices directory chosen = .ok manifest) :
    ∃ root, Uri.ofPath directory = .ok root ∧ ∀ key : PackageKey,
      (chosen.lookup key = none ∧ manifest.find? key.text = none) ∨
        ∃ choice entry, chosen.lookup key = some choice ∧
          choice.entry root.closePath = .ok entry ∧
          manifest.find? key.text = some entry := by
  obtain ⟨root, located, lists⟩ := Result.bind_eq_ok_iff.mp made
  obtain ⟨entries, makes, written⟩ := Result.bind_eq_ok_iff.mp lists
  rw [Result.pure_eq_ok_iff] at written
  subst written
  exact ⟨root, located, lookup_of_mapM makes⟩

/-- The entries of a manifest stand with the texts of keys. -/
theorem exists_key_of_find? {directory : Path} {chosen : List (PackageKey × Choice)}
    {manifest : Manifest} (made : ofChoices directory chosen = .ok manifest) {text : String}
    {entry : ResolvedDependency} (written : manifest.find? text = some entry) :
    ∃ key : PackageKey, key.text = text := by
  obtain ⟨root, -, lists⟩ := Result.bind_eq_ok_iff.mp made
  obtain ⟨entries, makes, whole⟩ := Result.bind_eq_ok_iff.mp lists
  obtain rfl := Result.pure_eq_ok_iff.mp whole
  obtain ⟨front, back, parts, -⟩ := List.lookup_eq_some_iff.mp written
  have member : (text, entry) ∈ entries := by
    rw [show entries = _ from parts]
    exact List.mem_append_right _ List.mem_cons_self
  obtain ⟨pair, -, writes⟩ := Result.exists_of_mem_mapM makes member
  obtain ⟨recorded, -, same⟩ := Result.bind_eq_ok_iff.mp writes
  rw [Result.pure_eq_ok_iff, Prod.mk.injEq] at same
  exact ⟨pair.1, same.1⟩

end Manifest

/-! ## A resolution

A project asks for version 0.5.0 of a package and for another package, which asks for
version 0.6.0 and pins it. -/

namespace Aviary

/-- A release of the packages at one host. -/
def release (path : String) (valid : PackageUri.isPath path = true) (minor : Nat)
    (bounded : minor < Version.limit) (pin : Option Checksum) : PackageUri where
  scheme := .package
  authority := "localhost:0"
  path
  version :=
    { major := 0, minor, patch := 0, preRelease := "", build := ""
      bounded := ⟨by decide, bounded, by decide⟩
      preRelease_valid := .inl rfl
      build_valid := .inl rfl }
  pin
  authority_valid := by decide
  path_valid := valid

theorem isPath_seeds : PackageUri.isPath "/seeds" = true := by decide

theorem one_lt_limit : 1 < Version.limit := by decide

theorem five_lt_limit : 5 < Version.limit := by decide

theorem six_lt_limit : 6 < Version.limit := by decide

/-- The birds in a version. -/
def birds (minor : Nat) (bounded : minor < Version.limit) (pin : Option Checksum) :
    PackageUri :=
  release "/birds" (by decide) minor bounded pin

/-- What the metadata of the seeds lists. -/
def listedBirds : PackageDependency :=
  { uri := "package://localhost:0/birds@0.6.0", checksum := some ⟨"B6"⟩ }

/-- What the metadata of birds that eat lists. -/
def listedSeeds : PackageDependency :=
  { uri := "package://localhost:0/seeds@0.1.0", checksum := none }

/-- The metadata of a package with the given dependencies. -/
def metadata (dependencies : List (String × PackageDependency)) : PackageMetadata where
  name := ""
  packageUri := ""
  version := ""
  archiveUrl := ""
  archiveChecksum := ⟨""⟩
  dependencies
  sourceCodeUrlScheme := none
  sourceCode := none
  documentation := none
  license := none
  authors := []
  issueTracker := none
  description := none

/-- A server that has the birds and the seeds. -/
def source : Source (Stateful Unit) where
  describe package :=
    if package.path = "/seeds" then return ⟨metadata [("birds", listedBirds)], ⟨"5e"⟩⟩
    else if package.version.minor = 6 then return ⟨metadata [], ⟨"b6"⟩⟩
    else return ⟨metadata [], ⟨"b5"⟩⟩
  load path := throw (.invalidProject (.undeclaredPackage path.text))
  log _ := return ()

/-- The project. -/
def project : Project where
  directory := ⟨"/work/aviary"⟩
  package := none
  dependencies := [("birds", .remote (birds 5 (by decide) none)),
    ("seeds", .remote (release "/seeds" (by decide) 1 (by decide) none))]

/-- The birds that the seeds ask for. -/
def pinnedBirds : PackageUri :=
  birds 6 (by decide) (some ⟨"B6"⟩)

theorem resolve_birds :
    (project.resolve source ()).map (fun pair => pair.1.find? pinnedBirds.key.text) =
      .ok (some (.remote "projectpackage://localhost:0/birds@0.6.0" ⟨"b6"⟩)) := by
  decide +kernel

end Aviary

/-! ## What the manifest records -/

namespace Project

variable {σ : Type} {source : Source (Stateful σ)} {project : Project} {manifest : Manifest}
  {before after : σ}

/-- A run that succeeds ends where the invariant holds and nothing is left to be met, and
the manifest records what was settled there. -/
theorem resolve_kept (resolved : project.resolve source before = .ok (manifest, after)) :
    ∃ finish root, Walk.Kept project (project.told source before) finish ∧
      (∀ required, Told.Requires project (project.told source before) required →
        finish.Settles required) ∧
      Uri.ofPath project.directory = .ok root ∧ ∀ key : PackageKey,
        (finish.chosen.lookup key = none ∧ manifest.find? key.text = none) ∨
          ∃ choice entry, finish.chosen.lookup key = some choice ∧
            choice.entry root.closePath = .ok entry ∧
            manifest.find? key.text = some entry := by
  obtain ⟨finish, course, done, made⟩ := resolve_course resolved
  have kept := (Walk.Kept.start project).leads course.leads
  obtain ⟨root, located, entries⟩ := Manifest.find?_ofChoices made
  refine ⟨finish, root, kept, ?_, located, entries⟩
  rintro required ⟨requirement, raised, asks⟩
  rcases kept.met requirement raised with waiting | settled
  · rw [done] at waiting
    exact nomatch waiting
  · exact settled required asks

/-- A visited project has the place of the package that it publishes. -/
theorem records_visited (resolved : project.resolve source before = .ok (manifest, after))
    {visited : Project} (among : visited ∈ Told.visited project (project.told source before))
    {package : PackageUri} (published : Walk.publishedPackage visited = .ok package) :
    ∃ root path, Uri.ofPath project.directory = .ok root ∧
      Manifest.relativePath root.closePath visited.directory = .ok path ∧
      manifest.find? package.key.text =
        some (.localProject package.toProjectPackage.text path) := by
  obtain ⟨finish, root, kept, -, located, entries⟩ := resolve_kept resolved
  obtain ⟨recorded, publishes, found⟩ := kept.recorded visited among
  obtain rfl := Except.ok.inj (publishes.symm.trans published)
  rcases entries recorded.key with ⟨absent, -⟩ | ⟨choice, entry, chosen, records, written⟩
  · exact nomatch absent.symm.trans found
  obtain rfl := Option.some.inj (chosen.symm.trans found)
  obtain ⟨path, leads, made⟩ := Result.bind_eq_ok_iff.mp records
  rw [Result.pure_eq_ok_iff] at made
  exact ⟨root, path, located, leads, made ▸ written⟩

/-- Something is recorded for every package that is required. -/
theorem records_required (resolved : project.resolve source before = .ok (manifest, after))
    {required : PackageUri}
    (requires : Told.Requires project (project.told source before) required) :
    (manifest.find? required.key.text).isSome = true := by
  obtain ⟨finish, root, -, settles, -, entries⟩ := resolve_kept resolved
  obtain ⟨choice, found, -⟩ := settles required requires
  rcases entries required.key with ⟨absent, -⟩ | ⟨-, entry, -, -, written⟩
  · exact nomatch absent.symm.trans found
  · rw [written]
    rfl

/-- At a place that no visited project has, the greatest version that is required is
recorded, with the checksum of its metadata. -/
theorem records_described (resolved : project.resolve source before = .ok (manifest, after))
    {key : PackageKey}
    (free : ∀ visited ∈ Told.visited project (project.told source before), ∀ package,
      Walk.publishedPackage visited = .ok package → package.key ≠ key)
    {entry : ResolvedDependency} (written : manifest.find? key.text = some entry) :
    ∃ selected description, Told.Requires project (project.told source before) selected ∧
      selected.key = key ∧
      .described selected.unpinned description ∈ project.told source before ∧
      entry = .remote selected.unpinned.toProjectPackage.text description.checksum ∧
      ∀ required, Told.Requires project (project.told source before) required →
        required.key = key → selected.version.atLeast required.version = true := by
  obtain ⟨finish, root, kept, settles, -, entries⟩ := resolve_kept resolved
  rcases entries key with ⟨-, absent⟩ | ⟨choice, other, found, records, present⟩
  · exact nomatch absent.symm.trans written
  obtain rfl := Option.some.inj (present.symm.trans written)
  cases choice with
  | localProject package directory =>
      obtain ⟨visited, among, published, place, -⟩ :=
        kept.chosen_local key package directory found
      exact absurd place (free visited among package published)
  | remote package checksum =>
      obtain ⟨selected, description, requires, place, rfl, described, rfl⟩ :=
        kept.chosen_remote key package checksum found
      refine ⟨selected, description, requires, place, described,
        (Except.ok.inj records).symm, ?_⟩
      rintro required asked rfl
      obtain ⟨choice, taken, meets⟩ := settles required asked
      obtain rfl := Option.some.inj (taken.symm.trans found)
      exact meets.1

theorem records_greatest (resolved : project.resolve source before = .ok (manifest, after))
    {key : PackageKey}
    (free : ∀ visited ∈ Told.visited project (project.told source before), ∀ package,
      Walk.publishedPackage visited = .ok package → package.key ≠ key)
    {entry : ResolvedDependency} (written : manifest.find? key.text = some entry) :
    ∃ selected checksum, Told.Requires project (project.told source before) selected ∧
      selected.key = key ∧
      entry = .remote selected.unpinned.toProjectPackage.text checksum ∧
      ∀ required, Told.Requires project (project.told source before) required →
        required.key = key → selected.version.atLeast required.version = true := by
  obtain ⟨selected, description, requires, place, -, recorded, greatest⟩ :=
    records_described resolved free written
  exact ⟨selected, description.checksum, requires, place, recorded, greatest⟩

/-- A visited project has the place of the package that it publishes.  Every other place has
an entry exactly if a package is required for it, and then the entry is the greatest of the
versions that are required for it. -/
theorem resolve_selects_greatest
    (resolved : project.resolve source before = .ok (manifest, after)) (key : PackageKey) :
    (∀ visited ∈ Told.visited project (project.told source before), ∀ package,
      Walk.publishedPackage visited = .ok package → package.key = key →
        ∃ root path, Uri.ofPath project.directory = .ok root ∧
          Manifest.relativePath root.closePath visited.directory = .ok path ∧
          manifest.find? key.text =
            some (.localProject package.toProjectPackage.text path)) ∧
    ((∀ visited ∈ Told.visited project (project.told source before), ∀ package,
        Walk.publishedPackage visited = .ok package → package.key ≠ key) →
      ((manifest.find? key.text).isSome = true ↔
        ∃ required, Told.Requires project (project.told source before) required ∧
          required.key = key) ∧
      ∀ entry, manifest.find? key.text = some entry →
        ∃ selected checksum, Told.Requires project (project.told source before) selected ∧
          selected.key = key ∧
          entry = .remote selected.unpinned.toProjectPackage.text checksum ∧
          ∀ required, Told.Requires project (project.told source before) required →
            required.key = key → selected.version.atLeast required.version = true) := by
  constructor
  · rintro visited among package published rfl
    exact records_visited resolved among published
  · intro free
    refine ⟨⟨?_, ?_⟩, fun entry written => records_greatest resolved free written⟩
    · intro present
      obtain ⟨entry, written⟩ := Option.isSome_iff_exists.mp present
      obtain ⟨required, -, requires, place, -⟩ := records_greatest resolved free written
      exact ⟨required, requires, place⟩
    · rintro ⟨required, requires, rfl⟩
      exact records_required resolved requires

/-- The greatest version of the birds is chosen, though a lesser one is met before. -/
theorem resolve_selects_birds :
    ∃ (manifest : Manifest) (selected : PackageUri) (checksum : Checksum),
      Aviary.project.resolve Aviary.source () = .ok (manifest, ()) ∧
      manifest.find? Aviary.pinnedBirds.key.text =
        some (.remote selected.unpinned.toProjectPackage.text checksum) ∧
      ∀ required, Told.Requires Aviary.project (Aviary.project.told Aviary.source ()) required →
        required.key = selected.key → selected.version.atLeast required.version = true := by
  obtain ⟨⟨manifest, ⟨⟩⟩, resolved, written⟩ := Result.map_eq_ok_iff.mp Aviary.resolve_birds
  have alone : Told.visited Aviary.project (Aviary.project.told Aviary.source ()) = [] := by
    decide +kernel
  have selects := (resolve_selects_greatest resolved Aviary.pinnedBirds.key).2
    fun visited among => by
      rw [alone] at among
      exact nomatch among
  obtain ⟨selected, checksum, -, place, entry, greatest⟩ := selects.2 _ written
  rw [entry] at written
  rw [← place] at greatest
  exact ⟨manifest, selected, checksum, resolved, written, greatest⟩

theorem agrees_of_agrees {first second computed : Checksum}
    (agrees : first.agrees computed = true) (agrees' : second.agrees computed = true) :
    first.agrees second = true := by
  simp only [Checksum.agrees, Text.sameIgnoringCase, beq_iff_eq] at agrees agrees' ⊢
  exact agrees.trans agrees'.symm

/-- Every pin of the version that is settled agrees with the checksum that is recorded, so all
of its pins agree with each other. -/
theorem resolve_checks_pins
    (resolved : project.resolve source before = .ok (manifest, after))
    {required selected : PackageUri} {uri : String} {checksum pin : Checksum}
    (requires : Told.Requires project (project.told source before) required)
    (pinned : required.pin = some pin)
    (written : manifest.find? required.key.text = some (.remote uri checksum))
    (read : PackageUri.parse uri = .ok selected) (same : selected.version = required.version) :
    pin.agrees checksum = true ∧
      ∀ other otherPin, Told.Requires project (project.told source before) other →
        other.key = required.key → other.version = required.version →
        other.pin = some otherPin → pin.agrees otherPin = true := by
  obtain ⟨finish, root, kept, settles, -, entries⟩ := resolve_kept resolved
  obtain ⟨package, found, version⟩ : ∃ package,
      finish.chosen.lookup required.key = some (.remote package checksum) ∧
        package.version = required.version := by
    rcases entries required.key with ⟨-, absent⟩ | ⟨choice, entry, found, records, present⟩
    · exact nomatch absent.symm.trans written
    obtain rfl := Option.some.inj (present.symm.trans written)
    cases choice with
    | localProject package directory =>
        obtain ⟨path, -, made⟩ := Result.bind_eq_ok_iff.mp records
        exact nomatch made
    | remote package sum =>
        obtain ⟨rfl, rfl⟩ := ResolvedDependency.remote.inj (Except.ok.inj records)
        obtain ⟨chosen, -, -, -, rfl, -⟩ := kept.chosen_remote _ package sum found
        have plain : chosen.unpinned.toProjectPackage.HasPlainPin := fun _ held => nomatch held
        rw [PackageUri.parse_text plain] at read
        obtain rfl := Except.ok.inj read
        exact ⟨chosen.unpinned, found, same⟩
  have checked (other : PackageUri) (otherPin : Checksum)
      (asked : Told.Requires project (project.told source before) other)
      (place : other.key = required.key) (equal : other.version = required.version)
      (held : other.pin = some otherPin) : otherPin.agrees checksum = true := by
    obtain ⟨choice, taken, meets⟩ := settles other asked
    rw [place] at taken
    obtain rfl := Option.some.inj (taken.symm.trans found)
    exact meets.2 (version.trans equal.symm) otherPin held
  have agrees := checked required pin requires rfl rfl pinned
  refine ⟨agrees, fun other otherPin asked place equal held => ?_⟩
  exact agrees_of_agrees agrees (checked other otherPin asked place equal held)

/-- The seeds require birds that are pinned, and the birds of this version are recorded: their
checksum agrees with the pin, in whatever case it is written. -/
theorem resolve_checks_birds :
    ∃ manifest, Aviary.project.resolve Aviary.source () = .ok (manifest, ()) ∧
      Told.Requires Aviary.project (Aviary.project.told Aviary.source ()) Aviary.pinnedBirds ∧
      Aviary.pinnedBirds.pin = some ⟨"B6"⟩ ∧
      manifest.find? Aviary.pinnedBirds.key.text =
        some (.remote "projectpackage://localhost:0/birds@0.6.0" ⟨"b6"⟩) ∧
      PackageUri.parse "projectpackage://localhost:0/birds@0.6.0" =
        .ok Aviary.pinnedBirds.unpinned.toProjectPackage ∧
      Checksum.agrees ⟨"B6"⟩ ⟨"b6"⟩ = true := by
  obtain ⟨⟨manifest, ⟨⟩⟩, resolved, written⟩ := Result.map_eq_ok_iff.mp Aviary.resolve_birds
  have requires : Told.Requires Aviary.project (Aviary.project.told Aviary.source ())
      Aviary.pinnedBirds := by
    have named : Aviary.listedBirds.package = .ok Aviary.pinnedBirds := by decide +kernel
    exact ⟨.listed Aviary.listedBirds, by decide +kernel, named⟩
  have pinned : Aviary.pinnedBirds.pin = some ⟨"B6"⟩ := rfl
  have read : PackageUri.parse "projectpackage://localhost:0/birds@0.6.0" =
      .ok Aviary.pinnedBirds.unpinned.toProjectPackage := by decide +kernel
  have checks := resolve_checks_pins resolved requires pinned written read rfl
  exact ⟨manifest, resolved, requires, pinned, written, read, checks.1⟩

end Project

end PackageResolution

import PackageResolution.Proofs.Action.Quiet
import PackageResolution.Proofs.Result
import PackageResolution.Storage.Basic

/-!
# Storages ask no server

What is kept is kept and found without a server, in memory as on disk.  Failures to keep or
to find a package are never about an asset of it.
-/

namespace PackageResolution

open Attempt (IsQuiet)

/-- That a failure comes before anything is known about the assets of a package. -/
def Error.IsEarly (failure : Error) : Prop :=
  ¬ failure.IsAboutAsset

namespace Storage

variable {package : PackageUri}

/-! ## Archives -/

theorem isEarly_of_openArchive [ArchiveReader] {archive : ByteArray} {failure : Error}
    (failed : openArchive package archive = .error failure) : failure.IsEarly := by
  unfold openArchive at failed
  split at failed
  · exact nomatch failed
  · obtain rfl := Except.error.inj failed
    exact id

theorem isEarly_of_entryPath {entry : ArchiveEntry} {failure : Error}
    (failed : entryPath package entry = .error failure) : failure.IsEarly := by
  unfold entryPath at failed
  split at failed
  · obtain rfl := Except.error.inj failed
    exact id
  split at failed
  · exact nomatch failed
  · obtain rfl := Except.error.inj failed
    exact id

theorem isEarly_of_addEntry {tree : PackageTree} {entry : ArchiveEntry} {failure : Error}
    (failed : addEntry package tree entry = .error failure) : failure.IsEarly := by
  unfold addEntry at failed
  cases read : entryPath package entry with
  | error cause =>
      rw [read] at failed
      obtain rfl := Except.error.inj failed
      exact isEarly_of_entryPath read
  | ok path =>
      rw [read, Result.ok_bind] at failed
      split at failed
      · exact nomatch failed
      split at failed
      · exact nomatch failed
      split at failed
      · exact nomatch failed
      · obtain rfl := Except.error.inj failed
        exact id
      · obtain rfl := Except.error.inj failed
        exact id

theorem isEarly_of_treeOfEntries {entries : List ArchiveEntry} {failure : Error}
    (failed : treeOfEntries package entries = .error failure) : failure.IsEarly := by
  unfold treeOfEntries at failed
  generalize PackageTree.empty = tree at failed
  induction entries generalizing tree with
  | nil => exact nomatch failed
  | cons entry entries inductionHypothesis =>
      rw [List.foldlM_cons] at failed
      cases added : addEntry package tree entry with
      | error cause =>
          rw [added] at failed
          obtain rfl := Except.error.inj failed
          exact isEarly_of_addEntry added
      | ok grown =>
          rw [added, Result.ok_bind] at failed
          exact inductionHypothesis grown failed

theorem isEarly_of_treeOfArchive [ArchiveReader] {archive : ByteArray} {failure : Error}
    (failed : treeOfArchive package archive = .error failure) : failure.IsEarly := by
  unfold treeOfArchive at failed
  cases opened : openArchive package archive with
  | error cause =>
      rw [opened] at failed
      obtain rfl := Except.error.inj failed
      exact isEarly_of_openArchive opened
  | ok entries =>
      rw [opened, Result.ok_bind] at failed
      exact isEarly_of_treeOfEntries failed

/-! ## Packages on disk -/

theorem isQuiet_createParent (path : Path) : IsQuiet Error.IsEarly (createParent path) := by
  unfold createParent
  split
  · exact Attempt.isQuiet_createDirectories _ fun _ => id
  · exact Attempt.isQuiet_pure _

theorem isQuiet_extractEntry (directory : Path) (entry : ArchiveEntry) :
    IsQuiet Error.IsEarly (extractEntry package directory entry) := by
  apply (Attempt.isQuiet_ofResult fun _ => isEarly_of_entryPath).bind
  intro path
  have write (contents : ByteArray) : IsQuiet Error.IsEarly
      (Attempt.files (.create (directory.join ⟨path⟩).text)
        (Action.request (.write (directory.join ⟨path⟩) contents))) :=
    Attempt.isQuiet_files (Action.isQuiet_request trivial) fun _ => id
  split
  · exact Attempt.isQuiet_pure _
  split
  · exact Attempt.isQuiet_createDirectories _ fun _ => id
  apply (isQuiet_createParent _).bind
  intro _
  split
  · exact write _
  · exact (write _).bind fun _ => Attempt.isQuiet_throw id
  · exact Attempt.isQuiet_throw id

theorem isQuiet_extract [ArchiveReader] (archive : ByteArray) (directory : Path) :
    IsQuiet Error.IsEarly (extract package archive directory) := by
  apply (Attempt.isQuiet_ofResult fun _ => isEarly_of_openArchive).bind
  intro entries
  exact Attempt.isQuiet_forM fun entry => isQuiet_extractEntry directory entry

theorem isQuiet_publish (staging root : Path) :
    IsQuiet Error.IsEarly (publish staging root) := by
  apply (isQuiet_createParent root).bind
  intro _
  apply Attempt.isQuiet_request_bind (by trivial)
  rintro (refusal | ⟨⟩)
  · apply (Attempt.isQuiet_lift (Action.isQuiet_leadsToDirectory root)).bind
    intro answer
    split
    · exact Attempt.isQuiet_pure _
    · exact Attempt.isQuiet_throw id
  · exact Attempt.isQuiet_pure _

theorem isQuiet_clearing {staging : Path} {attempt : Attempt Unit} {failing : Error → Prop}
    (quiet : IsQuiet failing attempt) : IsQuiet failing (clearing staging attempt) := by
  intro world
  obtain ⟨unasked, fails⟩ := quiet world
  have ran : (clearing staging attempt).runIn world =
      ((attempt.runIn world).1,
        ((attempt.runIn world).2.answer (.removeTree staging)).2) := by
    simp only [clearing, Attempt.runIn, ExceptT.run_mk, Action.run_bind]
    rfl
  rw [ran]
  exact ⟨(World.fetched_answer _ (by trivial)).trans unasked, fails⟩

theorem isQuiet_createStagingArea (cache : Path) :
    IsQuiet Error.IsEarly (createStagingArea cache) :=
  Attempt.isQuiet_createDirectories _ fun _ => id

theorem isQuiet_materialize [ArchiveReader] (cache : Path) (archive : ByteArray) :
    IsQuiet Error.IsEarly (materialize cache package archive) := by
  apply (isQuiet_createStagingArea cache).bind
  intro _
  apply (Attempt.isQuiet_lift (Action.isQuiet_createTemporaryDirectory _ _)).bind
  rintro (cause | staging)
  · exact Attempt.isQuiet_throw id
  · apply (isQuiet_clearing ((isQuiet_extract archive staging).bind fun _ =>
      isQuiet_publish staging _)).bind
    exact fun _ => Attempt.isQuiet_pure _

/-! ## Storages -/

variable (storage : Storage) (package)

theorem isQuiet_metadata? : IsQuiet Error.IsEarly (storage.metadata? package) := by
  cases storage with
  | memory => exact Attempt.isQuiet_pure _
  | disk cache =>
      apply Attempt.isQuiet_request_bind (by trivial)
      rintro (refusal | document)
      · cases refusal with
        | notFound => exact Attempt.isQuiet_pure _
        | _ => exact Attempt.isQuiet_throw id
      · exact Attempt.isQuiet_pure _

theorem isQuiet_keepMetadata (document : ByteArray) :
    IsQuiet Error.IsEarly (storage.keepMetadata package document) := by
  cases storage with
  | memory => exact Attempt.isQuiet_pure _
  | disk cache =>
      apply (isQuiet_createParent _).bind
      intro _
      apply (isQuiet_createStagingArea cache).bind
      intro _
      exact Attempt.isQuiet_writeThrough fun _ _ => id

theorem isQuiet_package? : IsQuiet Error.IsEarly (storage.package? package) := by
  cases storage with
  | memory => exact Attempt.isQuiet_pure _
  | disk cache =>
      apply (Attempt.isQuiet_lift ?_).bind
      · exact fun _ => Attempt.isQuiet_pure _
      · exact (Action.isQuiet_leadsToDirectory _).bind fun _ => Action.isQuiet_pure _

theorem isQuiet_keep [ArchiveReader] (archive : ByteArray) :
    IsQuiet Error.IsEarly (storage.keep package archive) := by
  cases storage with
  | memory =>
      apply (Attempt.isQuiet_ofResult fun _ => isEarly_of_treeOfArchive).bind
      exact fun _ => Attempt.isQuiet_pure _
  | disk cache =>
      apply (isQuiet_materialize cache archive).bind
      exact fun _ => Attempt.isQuiet_pure _

end Storage

/-! ## Packages that are kept -/

namespace StoredPackage

variable (stored : StoredPackage) (path : String)

theorem isQuiet_kind? : IsQuiet (fun _ => True) (stored.kind? path) := by
  cases stored with
  | held tree => exact Attempt.isQuiet_pure _
  | extracted root =>
      apply Attempt.isQuiet_request_bind (by trivial)
      rintro (refusal | isDirectory)
      · cases refusal with
        | notFound => exact Attempt.isQuiet_pure _
        | _ => exact Attempt.isQuiet_throw trivial
      · cases isDirectory with
        | false => exact Attempt.isQuiet_pure _
        | true => exact Attempt.isQuiet_pure _

theorem isQuiet_read : IsQuiet (fun _ => True) (stored.read path) := by
  cases stored with
  | held tree =>
      simp only [read]
      split
      · exact Attempt.isQuiet_pure _
      · exact Attempt.isQuiet_throw trivial
  | extracted root =>
      exact Attempt.isQuiet_files (Action.isQuiet_request trivial) fun _ => trivial

theorem isQuiet_children : IsQuiet (fun _ => True) (stored.children path) := by
  cases stored with
  | held tree => exact Attempt.isQuiet_pure _
  | extracted root =>
      apply (Attempt.isQuiet_files (Action.isQuiet_request (by trivial)) fun _ => trivial).bind
      exact fun _ => Attempt.isQuiet_pure _

end StoredPackage

end PackageResolution

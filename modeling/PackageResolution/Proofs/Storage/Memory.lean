import PackageResolution.Archive.Zip
import PackageResolution.Proofs.Package.Tree
import PackageResolution.Proofs.Storage.Keeping

/-!
# The tree of an archive

An archive becomes a tree in memory entry by entry.  Adding a directory stops at the first one
above it that is there already, so it relies on everything above that one being there too: the
tree is closed before and after each entry.  In the end the directories are the root, the entries
that are marked as directories, and whatever is above an entry, in whichever order the entries
come and also where a name between two slashes is empty.
-/

namespace PackageResolution

open PackageTree (IsAbove)

/-! ## What entries stand for -/

namespace ArchiveEntry

/-- That an entry brings a directory: its own, if it is marked as one, or one above it. -/
def BringsDirectory (entry : ArchiveEntry) (path : String) : Prop :=
  ∃ place, entry.path? = some place ∧
    (entry.isDirectory = true ∧ path = place ∨ IsAbove path place)

/-- That an entry brings a file. -/
def BringsFile (entry : ArchiveEntry) (path : String) : Prop :=
  entry.path? = some path ∧ path ≠ "" ∧ entry.isDirectory = false

variable {entry : ArchiveEntry} {path place : String}

theorem bringsDirectory_iff (found : entry.path? = some place) :
    entry.BringsDirectory path ↔ entry.isDirectory = true ∧ path = place ∨ IsAbove path place := by
  simp [BringsDirectory, found]

theorem bringsFile_iff (found : entry.path? = some place) :
    entry.BringsFile path ↔ path = place ∧ place ≠ "" ∧ entry.isDirectory = false := by
  rw [BringsFile, found, Option.some.injEq, eq_comm]
  constructor
  · rintro ⟨rfl, brought⟩
    exact ⟨rfl, brought⟩
  · rintro ⟨rfl, brought⟩
    exact ⟨rfl, brought⟩

end ArchiveEntry

/-! ## One entry -/

namespace PackageTree

variable {tree later : PackageTree} {entry : ArchiveEntry} {entries : List ArchiveEntry}
  {path : String}

/-- That a tree with an entry put into it is another one. -/
inductive Takes (tree : PackageTree) (entry : ArchiveEntry) : PackageTree → Prop
  | root (found : entry.path? = some "") : Takes tree entry tree
  | directory {path : String} (found : entry.path? = some path) (filled : path ≠ "")
      (marked : entry.isDirectory = true) : Takes tree entry (tree.addDirectory path)
  | file {path : String} {contents : ByteArray} (found : entry.path? = some path)
      (filled : path ≠ "") (plain : entry.isDirectory = false)
      (intact : entry.contents = .intact contents) : Takes tree entry (tree.addFile path contents)

namespace Takes

variable (takes : tree.Takes entry later)

include takes

theorem isClosed (closed : tree.IsClosed) : later.IsClosed := by
  cases takes with
  | root => exact closed
  | directory => exact closed.addDirectory
  | file => exact closed.addFile

/-- An entry adds the directories that it brings to a closed tree, and no others. -/
theorem mem_directories_iff (closed : tree.IsClosed) :
    path ∈ later.directories ↔ path ∈ tree.directories ∨ entry.BringsDirectory path := by
  cases takes with
  | root found =>
      rw [ArchiveEntry.bringsDirectory_iff found]
      constructor
      · exact .inl
      · rintro (member | ⟨-, rfl⟩ | before)
        · exact member
        · exact closed.root
        · exact absurd rfl before.ne_empty
  | directory found filled marked =>
      rw [ArchiveEntry.bringsDirectory_iff found, mem_addDirectory closed, namesOf_prefix_iff]
      constructor
      · rintro (member | rfl | same | before)
        · exact .inl member
        · exact .inl closed.root
        · exact .inr (.inl ⟨marked, same⟩)
        · exact .inr (.inr before)
      · rintro (member | ⟨-, same⟩ | before)
        · exact .inl member
        · exact .inr (.inr (.inl same))
        · exact .inr (.inr (.inr before))
  | file found filled plain intact =>
      rw [ArchiveEntry.bringsDirectory_iff found, mem_addFile closed, plain]
      simp

/-- An entry adds the file that it brings, or takes the place of one. -/
theorem isSome_lookup_iff : (later.files.lookup path).isSome = true ↔
    (tree.files.lookup path).isSome = true ∨ entry.BringsFile path := by
  cases takes with
  | root found => simp [ArchiveEntry.bringsFile_iff found]
  | directory found filled marked =>
      rw [ArchiveEntry.bringsFile_iff found, marked]
      simp [addDirectory]
  | file found filled plain intact =>
      rw [ArchiveEntry.bringsFile_iff found, lookup_addFile]
      split
      · rename_i here
        simp [here, filled, plain]
      · rename_i elsewhere
        simp [elsewhere]

end Takes

/-! ## All entries -/

/-- That a tree is what some entries bring. -/
structure Gathers (tree : PackageTree) (entries : List ArchiveEntry) : Prop where
  isClosed : tree.IsClosed
  mem_directories_iff : ∀ path, path ∈ tree.directories ↔
    path = "" ∨ ∃ entry ∈ entries, entry.BringsDirectory path
  isSome_lookup_iff : ∀ path, (tree.files.lookup path).isSome = true ↔
    ∃ entry ∈ entries, entry.BringsFile path

theorem gathers_empty : empty.Gathers [] where
  isClosed := isClosed_empty
  mem_directories_iff path := by simp [empty]
  isSome_lookup_iff path := by simp [empty]

namespace Gathers

theorem take (gathers : tree.Gathers entries) (takes : tree.Takes entry later) :
    later.Gathers (entries ++ [entry]) where
  isClosed := takes.isClosed gathers.isClosed
  mem_directories_iff path := by
    rw [takes.mem_directories_iff gathers.isClosed, gathers.mem_directories_iff, or_assoc]
    simp only [List.mem_append, List.mem_singleton, or_and_right, exists_or, exists_eq_left]
  isSome_lookup_iff path := by
    rw [takes.isSome_lookup_iff, gathers.isSome_lookup_iff]
    simp only [List.mem_append, List.mem_singleton, or_and_right, exists_or, exists_eq_left]

/-- The root is a directory and nothing else. -/
theorem kind?_root (gathers : tree.Gathers entries) : tree.kind? "" = some .directory := by
  have plain : (tree.files.lookup "").isSome = false := by
    rw [← Bool.not_eq_true, gathers.isSome_lookup_iff]
    rintro ⟨entry, -, -, filled, -⟩
    exact filled rfl
  rw [kind?, plain, if_neg Bool.false_ne_true, if_pos gathers.isClosed.root]

end Gathers

/-- Above a directory and above a file there are directories. -/
theorem IsClosed.of_isAbove {above : String} (closed : tree.IsClosed)
    (present : path ∈ tree.directories ∨ (tree.files.lookup path).isSome = true)
    (before : IsAbove above path) : above ∈ tree.directories := by
  have begun : namesOf above <+: namesOf path := namesOf_prefix_iff.mpr (.inr (.inr before))
  rcases present with member | file
  · exact closed.of_prefix path member above begun
  · rcases Option.isSome_iff_exists.mp file with ⟨contents, found⟩
    exact closed.above_file path contents found above begun before.ne

end PackageTree

/-! ## Archives -/

namespace Storage

variable {package : PackageUri} {archive : ByteArray} {entry : ArchiveEntry}
  {earlier entries : List ArchiveEntry} {tree later : PackageTree} {world : World}

theorem takes_of_addEntry (added : addEntry package tree entry = .ok later) :
    tree.Takes entry later := by
  obtain ⟨path, read, added⟩ := Result.bind_eq_ok_iff.mp added
  have found := path?_of_entryPath read
  split at added
  · rename_i root
    rw [Result.pure_eq_ok_iff] at added
    subst added
    exact .root (root ▸ found)
  · rename_i filled
    split at added
    · rename_i marked
      rw [Result.pure_eq_ok_iff] at added
      subst added
      exact .directory found filled marked
    · rename_i plain
      split at added
      · rename_i contents intact
        rw [Result.pure_eq_ok_iff] at added
        subst added
        exact .file found filled (Bool.of_not_eq_true plain) intact
      · exact nomatch added
      · exact nomatch added

theorem gathers_of_foldlM (gathers : tree.Gathers earlier)
    (added : entries.foldlM (addEntry package) tree = .ok later) :
    later.Gathers (earlier ++ entries) := by
  induction entries generalizing tree earlier with
  | nil =>
      rw [← Result.pure_eq_ok_iff.mp added, List.append_nil]
      exact gathers
  | cons entry entries inductionHypothesis =>
      rw [List.foldlM_cons] at added
      obtain ⟨next, first, rest⟩ := Result.bind_eq_ok_iff.mp added
      rw [List.append_cons]
      exact inductionHypothesis (gathers.take (takes_of_addEntry first)) rest

theorem exists_gathers [ArchiveReader] (made : treeOfArchive package archive = .ok tree) :
    ∃ entries, openArchive package archive = .ok entries ∧ tree.Gathers entries := by
  obtain ⟨entries, opened, made⟩ := Result.bind_eq_ok_iff.mp made
  exact ⟨entries, opened, gathers_of_foldlM PackageTree.gathers_empty made⟩

theorem runIn_keep_memory [ArchiveReader] : (Storage.memory.keep package archive).runIn world =
    ((treeOfArchive package archive).map .held, world) := by
  have whole : Storage.memory.keep package archive =
      (do return .held (← Attempt.ofResult (treeOfArchive package archive))) := rfl
  rw [whole, Attempt.runIn_bind, Attempt.runIn_ofResult]
  cases treeOfArchive package archive with
  | error failure => rfl
  | ok tree => rfl

theorem keep_memory_eq_ok_iff [ArchiveReader] :
    ((Storage.memory.keep package archive).runIn world).1 = .ok (.held tree) ↔
      treeOfArchive package archive = .ok tree := by
  rw [runIn_keep_memory, Result.map_eq_ok_iff]
  simp

/-- Whatever archive is kept in memory, its tree is closed: the root is a directory, and so is
every path after which a file or a directory goes on with a slash.  The other directories are
entries that are marked as such, or above an entry, and the files are the other entries. -/
theorem directories_kept_in_memory [ArchiveReader] {stored : StoredPackage}
    (kept : ((Storage.memory.keep package archive).runIn world).1 = .ok stored) :
    ∃ tree entries, stored = .held tree ∧ openArchive package archive = .ok entries ∧
      tree.kind? "" = some .directory ∧
      (∀ path, path ∈ tree.directories ∨ (tree.files.lookup path).isSome = true →
        ∀ above, IsAbove above path → above ∈ tree.directories) ∧
      (∀ path, path ∈ tree.directories ↔
        path = "" ∨ ∃ entry ∈ entries, entry.BringsDirectory path) ∧
      ∀ path, (tree.files.lookup path).isSome = true ↔
        ∃ entry ∈ entries, entry.BringsFile path := by
  rw [runIn_keep_memory, Result.map_eq_ok_iff] at kept
  rcases kept with ⟨tree, made, rfl⟩
  rcases exists_gathers made with ⟨entries, opened, gathers⟩
  have closed (path : String)
      (present : path ∈ tree.directories ∨ (tree.files.lookup path).isSome = true) (above : String)
      (before : IsAbove above path) : above ∈ tree.directories :=
    gathers.isClosed.of_isAbove present before
  exact ⟨tree, entries, rfl, opened, gathers.kind?_root, closed, gathers.mem_directories_iff,
    gathers.isSome_lookup_iff⟩

/-- An archive with an empty file `a//b` and then a directory `a`. -/
def bough : ByteArray :=
  ⟨#[80, 75, 3, 4, 20, 0, 0, 0, 0, 0, 0, 0, 33, 0, 0, 0, 0, 0, 0, 0, 0, 0, 0, 0, 0, 0, 4, 0, 0, 0,
    97, 47, 47, 98, 80, 75, 3, 4, 20, 0, 0, 0, 0, 0, 0, 0, 33, 0, 0, 0, 0, 0, 0, 0, 0, 0, 0, 0, 0,
    0, 2, 0, 0, 0, 97, 47, 80, 75, 1, 2, 20, 3, 20, 0, 0, 0, 0, 0, 0, 0, 33, 0, 0, 0, 0, 0, 0, 0,
    0, 0, 0, 0, 0, 0, 4, 0, 0, 0, 0, 0, 0, 0, 0, 0, 0, 0, 0, 128, 0, 0, 0, 0, 97, 47, 47, 98, 80,
    75, 1, 2, 20, 3, 20, 0, 0, 0, 0, 0, 0, 0, 33, 0, 0, 0, 0, 0, 0, 0, 0, 0, 0, 0, 0, 0, 2, 0, 0,
    0, 0, 0, 0, 0, 0, 0, 0, 0, 0, 64, 34, 0, 0, 0, 97, 47, 80, 75, 5, 6, 0, 0, 0, 0, 2, 0, 2, 0,
    98, 0, 0, 0, 66, 0, 0, 0, 0, 0]⟩

/-- Above the file of the bough are two directories: `a/`, whose last name is empty, and `a`, which
comes after its contents. -/
theorem bough_kept_in_memory : ∃ tree,
    ((Storage.memory.keep .birds bough).runIn World.empty).1 = .ok (.held tree) ∧
      (tree.files.lookup "a//b").isSome = true ∧
      IsAbove "a/" "a//b" ∧ "a/" ∈ tree.directories ∧
      IsAbove "a" "a/" ∧ "a" ∈ tree.directories := by
  have parts : (treeOfArchive .birds bough).map (·.files.map Prod.fst) = .ok ["a//b"] := by
    decide +kernel
  obtain ⟨tree, made, files⟩ := Result.map_eq_ok_iff.mp parts
  have kept : ((Storage.memory.keep .birds bough).runIn World.empty).1 = .ok (.held tree) :=
    keep_memory_eq_ok_iff.mpr made
  obtain ⟨_, _, same, -, -, closed, -, -⟩ := directories_kept_in_memory kept
  obtain rfl := StoredPackage.held.inj same
  have file : (tree.files.lookup "a//b").isSome = true := by
    rw [List.lookup_isSome_iff]
    have member : "a//b" ∈ tree.files.map Prod.fst := files ▸ List.mem_singleton_self _
    rcases List.mem_map.mp member with ⟨held, among, named⟩
    exact ⟨held, among, by simp [named]⟩
  have inner : IsAbove "a/" "a//b" := ⟨"b", rfl⟩
  have outer : IsAbove "a" "a/" := ⟨"", rfl⟩
  have below := closed "a//b" (.inr file) "a/" inner
  exact ⟨tree, kept, file, inner, below, outer, closed "a/" (.inl below) "a" outer⟩

end Storage

end PackageResolution

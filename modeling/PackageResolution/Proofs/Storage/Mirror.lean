import PackageResolution.Proofs.Action.Directories
import PackageResolution.Proofs.Storage.Memory

/-!
# Archives extracted below a directory

An archive is put into memory and below a directory entry by entry.  As long as no path becomes
both a file and a directory, the directory then holds exactly what the tree in memory holds.
The first entry that would make a path both cannot be written, whereas the tree in memory takes
it and stays inconsistent from then on.
-/

namespace PackageResolution

open FileTree (Apart Opens)
open PackageTree (namesOf IsTidy)

/-! ## Trees of files that hold a package -/

namespace FileTree

/-- That a tree of files holds a package below a place, and elsewhere what it held before. -/
structure Mirrors (start : FileTree) (top : Location) (package : PackageTree)
    (tree : FileTree) : Prop where
  isRegular : tree.IsRegular
  isOpen : tree.IsOpen top
  get?_eq : ∀ path, IsTidy path → tree.get? (top ++ namesOf path) = package.node? path
  exists_path : ∀ rest node, tree.get? (top ++ rest) = some node →
    ∃ path, IsTidy path ∧ rest = namesOf path
  get?_outside : ∀ place, ¬ top <+: place → tree.get? place = start.get? place

variable {start tree later : FileTree} {top : Location} {package : PackageTree}
  {path above name : String} {contents : ByteArray}

/-- Below an empty directory there is the empty package. -/
theorem mirrors_empty (regular : tree.IsRegular) (opened : tree.IsOpen top)
    (unused : ∀ rest, rest ≠ [] → tree.get? (top ++ rest) = none) :
    Mirrors tree top .empty tree where
  isRegular := regular
  isOpen := opened
  get?_eq path _ := by
    by_cases empty : path = ""
    · rw [empty, PackageTree.namesOf_empty, List.append_nil, opened top (List.prefix_refl _)]
      rfl
    · rw [unused _ (PackageTree.namesOf_ne_nil empty)]
      simp [PackageTree.node?, PackageTree.empty, empty]
  exists_path rest node found := by
    by_cases nowhere : rest = []
    · exact ⟨"", List.not_mem_nil, nowhere⟩
    · rw [unused rest nowhere] at found
      cases found
  get?_outside _ _ := rfl

namespace Mirrors

variable (mirrors : Mirrors start top package tree)

include mirrors

/-- No file is on the way to a path on disk exactly if none is in memory. -/
theorem isFree_iff (tidy : IsTidy path) : tree.IsFree (top ++ namesOf path) ↔
    ∀ other, namesOf other <+: namesOf path → package.files.lookup other = none := by
  constructor
  · intro free other begun
    by_contra present
    obtain ⟨contents, found⟩ := Option.ne_none_iff_exists'.mp present
    rw [← PackageTree.node?_eq_file_iff, ← mirrors.get?_eq other (tidy.of_prefix begun)] at found
    exact free _ contents ((List.prefix_append_right_inj top).mpr begun) found
  · intro free place contents begun found
    rcases prefix_append_cases begun with before | ⟨rest, rfl, among⟩
    · rw [mirrors.isOpen place before] at found
      exact nomatch found
    · obtain ⟨other, rfl⟩ := tidy.exists_names among
      rw [mirrors.get?_eq other (tidy.of_prefix among), PackageTree.node?_eq_file_iff,
        free other among] at found
      exact nomatch found

/-- Directories that are created below the place of a package change nothing elsewhere. -/
theorem get?_of_opens {place : Location} (opens : Opens (top ++ namesOf path) tree later)
    (outside : ¬ top <+: place) : later.get? place = start.get? place := by
  rw [opens.get?_eq, ← mirrors.get?_outside place outside]
  split
  · rename_i begun
    rcases prefix_append_cases begun with before | ⟨rest, rfl, -⟩
    · exact (mirrors.isOpen place before).symm
    · exact absurd (List.prefix_append top rest) outside
  · rfl

theorem exists_path_of_opens (opens : Opens (top ++ namesOf path) tree later) (tidy : IsTidy path)
    {rest : Location} {node : FileNode} (found : later.get? (top ++ rest) = some node) :
    ∃ other, IsTidy other ∧ rest = namesOf other := by
  rw [opens.get?_eq] at found
  split at found
  · rename_i begun
    rw [List.prefix_append_right_inj] at begun
    obtain ⟨other, rfl⟩ := tidy.exists_names begun
    exact ⟨other, tidy.of_prefix begun, rfl⟩
  · exact mirrors.exists_path rest node found

theorem addDirectory (closed : package.IsClosed) (tidy : IsTidy path)
    (consistent : (package.addDirectory path).IsConsistent)
    (opens : Opens (top ++ namesOf path) tree later) :
    Mirrors start top (package.addDirectory path) later where
  isRegular := opens.isRegular
  isOpen place begun := opens.isOpen place (begun.trans (List.prefix_append _ _))
  get?_eq other otherTidy := by
    simp only [opens.get?_eq, PackageTree.node?_addDirectory closed consistent,
      List.prefix_append_right_inj, mirrors.get?_eq other otherTidy]
  exists_path _ _ := mirrors.exists_path_of_opens opens tidy
  get?_outside _ := mirrors.get?_of_opens opens

theorem addFile (closed : package.IsClosed) (tidy : IsTidy path)
    (split : namesOf path = namesOf above ++ [name])
    (consistent : (package.addFile path contents).IsConsistent)
    (opens : Opens (top ++ namesOf above) tree later) :
    Mirrors start top (package.addFile path contents)
      (later.insert (top ++ namesOf path) (.file contents)) where
  isRegular := by
    apply opens.isRegular.insert
    exact fun _ other => nomatch other
  isOpen place begun := by
    rw [get?_insert (by simp [split]), if_neg]
    · exact opens.isOpen place (begun.trans (List.prefix_append _ _))
    · rintro rfl
      exact not_append_prefix (by simp [split]) begun
  get?_eq other otherTidy := by
    rw [get?_insert (by simp [split]), PackageTree.node?_addFile closed split consistent,
      opens.get?_eq, mirrors.get?_eq other otherTidy]
    simp only [List.append_cancel_left_eq, PackageTree.namesOf_injective.eq_iff,
      List.prefix_append_right_inj]
  exists_path rest node found := by
    rw [get?_insert (by simp [split])] at found
    split at found
    · rename_i here
      exact ⟨path, tidy, List.append_cancel_left here⟩
    · have begun : namesOf above <+: namesOf path := split ▸ List.prefix_append _ _
      exact mirrors.exists_path_of_opens opens (tidy.of_prefix begun) found
  get?_outside place outside := by
    rw [get?_insert (by simp [split]), if_neg]
    · exact mirrors.get?_of_opens opens outside
    · rintro rfl
      exact outside (List.prefix_append _ _)

/-- The way to whatever is there is open. -/
theorem isOpen_of_split (closed : package.IsClosed) (consistent : package.IsConsistent)
    (tidy : IsTidy path) (split : namesOf path = namesOf above ++ [name])
    (present : package.node? path ≠ none) : tree.IsOpen (top ++ namesOf above) := by
  intro place begun
  rcases prefix_append_cases begun with before | ⟨rest, rfl, among⟩
  · exact mirrors.isOpen place before
  · have start : namesOf above <+: namesOf path := split ▸ List.prefix_append _ _
    obtain ⟨other, rfl⟩ := (tidy.of_prefix start).exists_names among
    rw [mirrors.get?_eq other (tidy.of_prefix (among.trans start))]
    exact closed.node?_of_prefix consistent present (among.trans start)
      (PackageTree.ne_of_split split among)

theorem isOpen_of_directory (closed : package.IsClosed) (consistent : package.IsConsistent)
    (tidy : IsTidy path) (found : package.node? path = some .directory) :
    tree.IsOpen (top ++ namesOf path) := by
  by_cases empty : path = ""
  · rw [empty, PackageTree.namesOf_empty, List.append_nil]
    exact mirrors.isOpen
  · obtain ⟨above, name, split⟩ := tidy.exists_split empty
    have there := mirrors.get?_eq path tidy
    rw [split, ← List.append_assoc] at there ⊢
    exact (mirrors.isOpen_of_split closed consistent tidy split
      (found ▸ Option.some_ne_none _)).concat (there.trans found)

/-- Directories that are created elsewhere leave the package as it is. -/
theorem of_opens {place : Location} (opens : Opens place tree later)
    (outside : ¬ top <+: place) : Mirrors later top package later := by
  have same (rest : Location) : later.get? (top ++ rest) = tree.get? (top ++ rest) :=
    opens.get?_of_not_prefix fun begun => outside ((List.prefix_append top rest).trans begun)
  exact {
    isRegular := opens.isRegular
    isOpen := fun other begun => by
      rw [opens.get?_eq]
      split
      · rfl
      · exact mirrors.isOpen other begun
    get?_eq := fun path tidy => by rw [same, mirrors.get?_eq path tidy]
    exists_path := fun rest node found => mirrors.exists_path rest node (same rest ▸ found)
    get?_outside := fun _ _ => rfl }

/-- A package that is moved is at the new place what it was at the old one. -/
theorem move {target : Location} {name : String} (opened : tree.IsOpen target)
    (apart : Apart top (target ++ [name])) :
    Mirrors (tree.move top (target ++ [name])) (target ++ [name]) package
      (tree.move top (target ++ [name])) := by
  have inside : top ≠ [] := by
    rintro rfl
    exact apart.1 List.nil_prefix
  have same (rest : Location) : (tree.move top (target ++ [name])).get? (target ++ [name] ++ rest) =
      tree.get? (top ++ rest) := get?_move_append inside (by simp)
  exact {
    isRegular := mirrors.isRegular.move _ _
    isOpen := by
      apply IsOpen.concat
      · intro other begun
        rw [get?_move, opened other begun]
        · exact fun start => apart.1 (start.trans (begun.trans (List.prefix_append _ _)))
        · exact fun start => not_append_prefix (List.cons_ne_nil _ _) (start.trans begun)
      · have whole := same []
        rw [List.append_nil, List.append_nil] at whole
        rw [whole]
        exact mirrors.isOpen top (List.prefix_refl _)
    get?_eq := fun path tidy => by rw [same, mirrors.get?_eq path tidy]
    exists_path := fun rest node found => mirrors.exists_path rest node (same rest ▸ found)
    get?_outside := fun _ _ => rfl }

end Mirrors

end FileTree

/-! ## Entries -/

/-- That a path in a package leads to a place that a file system can hold, where the package is
in the given directory. -/
def StoredPackage.Fits (root : Path) (top : Location) (path : String) : Prop :=
  (placeOf root path).Reaches (top ++ namesOf path)

instance (root : Path) (top : Location) (path : String) :
    Decidable (StoredPackage.Fits root top path) :=
  inferInstanceAs (Decidable (Path.Reaches _ _))

namespace StoredPackage.Fits

variable {root : Path} {top : Location} {path : String}

theorem isTidy (fits : Fits root top path) : IsTidy path :=
  fun member => (fits.isName "" (List.mem_append_right _ member)).1 rfl

theorem join (fits : Fits root top path) (filled : path ≠ "") :
    (root.join ⟨path⟩).Reaches (top ++ namesOf path) := by
  rwa [Fits, placeOf, if_neg filled] at fits

/-- The place of a path with names does not end with a slash. -/
theorem endsWith_join (fits : Fits root top path) (filled : path ≠ "") :
    Text.endsWith '/' (root.join ⟨path⟩).text = false := by
  have finish (before : String) : Text.endsWith '/' (before ++ path) = Text.endsWith '/' path := by
    have chars : path.toList ≠ [] := by simpa using filled
    rw [Text.endsWith, Text.endsWith, String.toList_append, List.getLast?_append_of_ne_nil _ chars]
  have ajar : Text.endsWith '/' path = false := by
    rw [Text.endsWith, beq_eq_false_iff_ne]
    intro closed
    obtain ⟨chars, whole⟩ := List.getLast?_eq_some_iff.mp closed
    obtain rfl : path = String.ofList chars ++ "/" := String.toList_injective (by simpa using whole)
    apply fits.isTidy
    rw [PackageTree.namesOf_of_ne filled, Text.fields_append_slash]
    exact List.mem_append_right _ (List.mem_singleton_self _)
  unfold Path.join
  split
  · exact ajar
  · split
    · rw [finish, ajar]
    · rw [finish, ajar]

theorem endsWith_placeOf (fits : Fits root top path) (filled : path ≠ "") :
    Text.endsWith '/' (placeOf root path).text = false := by
  rw [placeOf, if_neg filled]
  exact fits.endsWith_join filled

end StoredPackage.Fits

namespace Storage

variable {start : FileTree} {top above : Location} {directory : Path} {path name : String}
  {package : PackageUri} {world : World}

theorem runIn_createParent (regular : world.tree.IsRegular) {target : Path}
    (reaches : target.Reaches (above ++ [name])) :
    (world.tree.IsFree above ∧ ∃ tree, Opens above world.tree tree ∧
        (createParent target).runIn world = (.ok (), { world with tree })) ∨
      ¬ world.tree.IsFree above ∧
        ∃ failure after, (createParent target).runIn world = (.error failure, after) := by
  obtain ⟨nearest, found, nearer⟩ := reaches.exists_parent?
  rw [createParent, found]
  exact Attempt.runIn_createDirectories _ regular nearer

/-- How something in memory and the same on disk end: both with a consistent tree, which the
directory then holds; or on disk with a failure, and then in memory without a consistent tree. -/
inductive Tallies (start : FileTree) (top : Location) (world : World) :
    Result PackageTree → Result Unit × World → Prop
  | kept {tree : PackageTree} {files : FileTree} (closed : tree.IsClosed)
      (consistent : tree.IsConsistent) (mirrors : start.Mirrors top tree files) :
      Tallies start top world (.ok tree) (.ok (), { world with tree := files })
  | failed {result : Result PackageTree} {failure : Error} {after : World}
      (inconsistent : ∀ tree, result = .ok tree → ¬ tree.IsConsistent) :
      Tallies start top world result (.error failure, after)

variable {tree : PackageTree} {entry : ArchiveEntry}

theorem Tallies.of_error {cause : Error} {run : Result Unit × World}
    (refused : ∃ failure after, run = (.error failure, after)) :
    Tallies start top world (.error cause) run := by
  obtain ⟨failure, after, rfl⟩ := refused
  exact .failed nofun

theorem Tallies.of_inconsistent {failure : Error} {after : World}
    (inconsistent : ¬ tree.IsConsistent) :
    Tallies start top world (.ok tree) (.error failure, after) := by
  apply Tallies.failed
  intro later same
  rwa [← Except.ok.inj same]

section

variable (closed : tree.IsClosed) (consistent : tree.IsConsistent)
  (mirrors : start.Mirrors top tree world.tree)

include closed consistent mirrors

theorem tallies_directory (fits : StoredPackage.Fits directory top path) (filled : path ≠ "")
    (task : IoTask) :
    Tallies start top world (.ok (tree.addDirectory path))
      ((Attempt.createDirectories task (directory.join ⟨path⟩)).runIn world) := by
  have way := mirrors.isFree_iff fits.isTidy
  have stays : (tree.addDirectory path).IsConsistent ↔ _ :=
    PackageTree.isConsistent_addDirectory closed
  rcases Attempt.runIn_createDirectories task mirrors.isRegular (fits.join filled) with
    ⟨free, files, opens, ran⟩ | ⟨blocked, failure, after, ran⟩
  · have consistent := stays.mpr ⟨consistent, way.mp free⟩
    rw [ran]
    exact .kept closed.addDirectory consistent
      (mirrors.addDirectory closed fits.isTidy consistent opens)
  · rw [ran]
    exact .of_inconsistent fun kept => blocked (way.mpr (stays.mp kept).2)

/-- A file is written below directories that are there, unless a directory is in its place. -/
theorem tallies_write {above : String} (fits : StoredPackage.Fits directory top path)
    (filled : path ≠ "") (split : namesOf path = namesOf above ++ [name]) {files : FileTree}
    (opens : Opens (top ++ namesOf above) world.tree files)
    (free : ∀ other, namesOf other <+: namesOf above → tree.files.lookup other = none)
    (task : IoTask) (contents : ByteArray) :
    Tallies start top world (.ok (tree.addFile path contents))
      ((Attempt.files task (Action.request (.write (directory.join ⟨path⟩) contents))).runIn
        { world with tree := files }) := by
  have tidy := fits.isTidy
  have stays : (tree.addFile path contents).IsConsistent ↔ _ :=
    PackageTree.isConsistent_addFile closed split
  have place : top ++ namesOf path = top ++ namesOf above ++ [name] := by
    rw [split, List.append_assoc]
  have reaches := fits.join filled
  rw [place] at reaches
  have outside : ¬ top ++ namesOf path <+: top ++ namesOf above := by
    rw [place]
    exact FileTree.not_append_prefix (List.cons_ne_nil _ _)
  have there : files.get? (top ++ namesOf path) = tree.node? path := by
    rw [opens.get?_of_not_prefix outside, mirrors.get?_eq path tidy]
  have written : (Action.request (.write (directory.join ⟨path⟩) contents)).run
      { world with tree := files } =
        { world with tree := files }.change (·.write · (directory.join ⟨path⟩) contents) := rfl
  simp only [Attempt.runIn_files, written, World.change]
  by_cases taken : path ∈ tree.directories
  · have found := there.trans (consistent.node?_eq_directory_iff.mpr taken)
    rw [place] at found
    rw [FileTree.write_of_isOpen reaches (opens.isOpen.concat found)]
    exact .of_inconsistent fun kept => (stays.mp kept).2.2 taken
  · have other : files.get? (top ++ namesOf above ++ [name]) ≠ some .directory := by
      rw [← place, there]
      exact mt consistent.node?_eq_directory_iff.mp taken
    have consistent := stays.mpr ⟨consistent, free, taken⟩
    rw [FileTree.write_of_ne opens.isOpen reaches (fits.endsWith_join filled)
      opens.isRegular.isLinkFree other, ← place]
    exact .kept closed.addFile consistent
      (mirrors.addFile closed tidy split consistent opens)

theorem tallies_file (fits : StoredPackage.Fits directory top path) (filled : path ≠ "")
    (task : IoTask) (contents : ByteArray) :
    Tallies start top world (.ok (tree.addFile path contents))
      ((do
        createParent (directory.join ⟨path⟩)
        Attempt.files task (Action.request (.write (directory.join ⟨path⟩) contents)) :
          Attempt Unit).runIn world) := by
  have tidy := fits.isTidy
  obtain ⟨above, name, split⟩ := tidy.exists_split filled
  have start : namesOf above <+: namesOf path := split ▸ List.prefix_append _ _
  have way := mirrors.isFree_iff (tidy.of_prefix start)
  have reaches := fits.join filled
  rw [split, ← List.append_assoc] at reaches
  rw [Attempt.runIn_bind]
  rcases runIn_createParent mirrors.isRegular reaches with
    ⟨free, files, opens, ran⟩ | ⟨blocked, failure, after, ran⟩
  · rw [ran]
    exact tallies_write closed consistent mirrors fits filled split opens (way.mp free) task
      contents
  · rw [ran]
    exact .of_inconsistent fun kept =>
      blocked (way.mpr ((PackageTree.isConsistent_addFile closed split).mp kept).2.1)

end

/-- An entry is taken in memory and on disk, or it makes a path both a file and a directory, or
it cannot be read at all. -/
theorem tallies_extractEntry (package : PackageUri) (closed : tree.IsClosed)
    (consistent : tree.IsConsistent) (mirrors : start.Mirrors top tree world.tree)
    (fits : ∀ path, entry.path? = some path → StoredPackage.Fits directory top path) :
    Tallies start top world (addEntry package tree entry)
      ((extractEntry package directory entry).runIn world) := by
  rw [addEntry, extractEntry, Attempt.runIn_bind, Attempt.runIn_ofResult]
  cases read : entryPath package entry with
  | error failure => exact .of_error ⟨failure, world, rfl⟩
  | ok path =>
      have fits := fits path (path?_of_entryPath read)
      rw [Result.ok_bind]
      simp only
      by_cases empty : path = ""
      · rw [if_pos empty, if_pos empty]
        exact .kept closed consistent mirrors
      rw [if_neg empty, if_neg empty]
      by_cases isDirectory : entry.isDirectory = true
      · rw [if_pos isDirectory, if_pos isDirectory]
        exact tallies_directory closed consistent mirrors fits empty _
      · rw [if_neg isDirectory, if_neg isDirectory]
        cases entry.contents with
        | intact bytes => exact tallies_file closed consistent mirrors fits empty _ bytes
        | damaged detail =>
            exact .of_error (Attempt.exists_failure_of_bind (fun _ =>
              Attempt.exists_failure_of_bind (fun _ world => ⟨_, world, rfl⟩) _) _ world)
        | unreadable detail =>
            exact .of_error
              (Attempt.exists_failure_of_bind (fun _ world => ⟨_, world, rfl⟩) _ world)

/-! ## Archives -/

/-- No entry makes a tree consistent again. -/
theorem isConsistent_of_addEntry {later : PackageTree}
    (added : addEntry package tree entry = .ok later) (consistent : later.IsConsistent) :
    tree.IsConsistent := by
  cases takes_of_addEntry added with
  | root => exact consistent
  | directory => exact consistent.of_addDirectory
  | file => exact consistent.of_addFile

theorem isConsistent_of_foldlM {entries : List ArchiveEntry} {later : PackageTree}
    (added : entries.foldlM (addEntry package) tree = .ok later) (consistent : later.IsConsistent) :
    tree.IsConsistent := by
  induction entries generalizing tree with
  | nil => rwa [Result.pure_eq_ok_iff.mp added]
  | cons entry entries inductionHypothesis =>
      rw [List.foldlM_cons] at added
      obtain ⟨next, first, rest⟩ := Result.bind_eq_ok_iff.mp added
      exact isConsistent_of_addEntry first (inductionHypothesis rest)

/-- What holds of the empty directory holds after all entries. -/
theorem tallies_forM {entries : List ArchiveEntry} (closed : tree.IsClosed)
    (consistent : tree.IsConsistent) (mirrors : start.Mirrors top tree world.tree)
    (fits : ∀ entry ∈ entries, ∀ path, entry.path? = some path →
      StoredPackage.Fits directory top path) :
    Tallies start top world (entries.foldlM (addEntry package) tree)
      ((entries.forM (extractEntry package directory)).runIn world) := by
  induction entries generalizing tree world with
  | nil => exact .kept closed consistent mirrors
  | cons entry entries inductionHypothesis =>
      rw [List.forall_mem_cons] at fits
      have split : (entry :: entries).forM (extractEntry package directory) =
          extractEntry package directory entry >>= fun _ =>
            entries.forM (extractEntry package directory) := rfl
      rw [List.foldlM_cons, split, Attempt.runIn_bind]
      have tallies := tallies_extractEntry package closed consistent mirrors fits.1
      generalize (extractEntry package directory entry).runIn world = run at tallies ⊢
      generalize first : addEntry package tree entry = result at tallies ⊢
      cases tallies with
      | @kept next files closed consistent mirrors =>
          rw [Result.ok_bind]
          simp only
          have tallies : Tallies start top { world with tree := files }
              (entries.foldlM (addEntry package) next)
              ((entries.forM (extractEntry package directory)).runIn
                { world with tree := files }) :=
            inductionHypothesis closed consistent mirrors fits.2
          generalize (entries.forM (extractEntry package directory)).runIn
            { world with tree := files } = run at tallies ⊢
          generalize entries.foldlM (addEntry package) next = result at tallies ⊢
          cases tallies with
          | kept closed consistent mirrors => exact .kept closed consistent mirrors
          | failed inconsistent => exact .failed inconsistent
      | failed inconsistent =>
          apply Tallies.failed
          intro later added consistent
          obtain ⟨next, same, rest⟩ := Result.bind_eq_ok_iff.mp added
          exact inconsistent next same (isConsistent_of_foldlM rest consistent)

/-- That a file system can hold the entries of an archive below a directory. -/
def Accommodates [ArchiveReader] (directory : Path) (top : Location) (package : PackageUri)
    (archive : ByteArray) : Prop :=
  ∀ entries, openArchive package archive = .ok entries → ∀ entry ∈ entries,
    ∀ path, entry.path? = some path → StoredPackage.Fits directory top path

/-- An archive that is extracted into an empty directory ends as in memory. -/
theorem tallies_extract [ArchiveReader] {archive : ByteArray}
    (accommodates : Accommodates directory top package archive)
    (mirrors : start.Mirrors top .empty world.tree) :
    Tallies start top world (treeOfArchive package archive)
      ((extract package archive directory).runIn world) := by
  rw [treeOfArchive, extract, Attempt.runIn_bind, Attempt.runIn_ofResult]
  cases opened : openArchive package archive with
  | error failure => exact .failed nofun
  | ok entries =>
      exact tallies_forM PackageTree.isClosed_empty PackageTree.isConsistent_empty mirrors
        (accommodates entries opened)

end Storage

end PackageResolution

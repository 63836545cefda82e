import PackageResolution.Archive.Zip
import PackageResolution.Proofs.Action.Growth
import PackageResolution.Proofs.Storage.Publishing

/-!
# Packages in memory and on disk

An archive is kept on disk exactly if it is kept in memory as a consistent tree, and then both
give the same answers about every path that does not lead through a file.  About a path through
a file the one says that nothing is there, and the other fails.
-/

namespace PackageResolution

open FileTree (Mirrors)
open PackageTree (namesOf)

/-! ## Answers -/

/-- That no file is above a path. -/
def PackageTree.IsClear (tree : PackageTree) (path : String) : Prop :=
  ∀ above, namesOf above <+: namesOf path → above ≠ path → tree.files.lookup above = none

namespace StoredPackage

variable {root : Path} {path : String}

theorem runIn_kind? (root : Path) (path : String) (world : World) :
    ((extracted root).kind? path).runIn world =
      (match world.tree.isDirectory world.current (placeOf root path) with
        | .ok isDirectory => .ok (some (if isDirectory then .directory else .file))
        | .error .notFound => .ok none
        | .error refusal => .error (.io (.stat (placeOf root path).text) (.refused refusal)),
        world) := by
  have asked : (Action.request (.isDirectory (placeOf root path))).run world =
      (world.tree.isDirectory world.current (placeOf root path), world) := rfl
  rw [kind?, Attempt.runIn_bind, Attempt.runIn_lift, asked]
  cases world.tree.isDirectory world.current (placeOf root path) with
  | ok isDirectory => cases isDirectory <;> rfl
  | error refusal => cases refusal <;> rfl

variable {start files : FileTree} {top : Location} {tree : PackageTree}

section

variable (mirrors : Mirrors start top tree files) (closed : tree.IsClosed)
  (consistent : tree.IsConsistent) (fits : Fits root top path)

include mirrors closed consistent fits

/-- What a path leads to where no file is above it. -/
theorem isDirectory_of_isClear (current : Location) (clear : tree.IsClear path) :
    files.isDirectory current (placeOf root path) =
      match tree.node? path with
      | some node => .ok node.isDirectory
      | none => .error .notFound := by
  have tidy := fits.isTidy
  have reaches : (placeOf root path).Reaches (top ++ namesOf path) := fits
  have found := mirrors.get?_eq path tidy
  by_cases empty : path = ""
  · subst empty
    rw [PackageTree.namesOf_empty, List.append_nil] at reaches found
    rw [FileTree.isDirectory_of_isOpen mirrors.isOpen reaches, ← found,
      mirrors.isOpen top (List.prefix_refl _)]
    rfl
  obtain ⟨above, name, split⟩ := tidy.exists_split empty
  rw [split, ← List.append_assoc] at reaches found
  by_cases opened : files.IsOpen (top ++ namesOf above)
  · cases node : tree.node? path with
    | none => rw [FileTree.isDirectory_of_vacant opened reaches (found.trans node)]
    | some held =>
        cases held with
        | directory =>
            rw [FileTree.isDirectory_of_isOpen (opened.concat (found.trans node)) reaches]
            rfl
        | file contents =>
            rw [FileTree.isDirectory_of_file opened reaches (fits.endsWith_placeOf empty)
              (found.trans node)]
            rfl
        | link target => exact absurd node (tree.node?_ne_link path target)
  · have absent : tree.node? path = none := by
      by_contra present
      exact opened (mirrors.isOpen_of_split closed consistent tidy split present)
    rcases FileTree.find_of_not_isOpen current mirrors.isRegular.isLinkFree reaches opened with
      missing | ⟨blocked, -⟩
    · rw [FileTree.isDirectory_of_find_eq_error (missing true), absent]
    · refine absurd ?_ blocked
      have begun : namesOf above <+: namesOf path := split ▸ List.prefix_append _ _
      rw [mirrors.isFree_iff (tidy.of_prefix begun)]
      exact fun other start =>
        clear other (start.trans begun) (PackageTree.ne_of_split split start)

/-- Through a file no path leads anywhere. -/
theorem isDirectory_of_not_isClear (current : Location) (obstructed : ¬ tree.IsClear path) :
    files.isDirectory current (placeOf root path) = .error .notADirectory ∧
      tree.node? path = none := by
  have tidy := fits.isTidy
  simp only [PackageTree.IsClear, not_forall] at obstructed
  obtain ⟨other, start, different, present⟩ := obstructed
  obtain ⟨contents, found⟩ := Option.ne_none_iff_exists'.mp present
  rw [← PackageTree.node?_eq_file_iff] at found
  have filled := closed.ne_empty_of_file consistent found
  obtain ⟨above, name, split⟩ := (tidy.of_prefix start).exists_split filled
  obtain ⟨rest, whole⟩ := start
  have onward : rest ≠ [] := by
    rintro rfl
    rw [List.append_nil] at whole
    exact different (PackageTree.namesOf_injective whole)
  constructor
  · have reaches : (placeOf root path).Reaches (top ++ namesOf above ++ name :: rest) := by
      rw [List.append_assoc, List.append_cons, ← split, whole]
      exact fits
    have opened := mirrors.isOpen_of_split closed consistent (tidy.of_prefix ⟨rest, whole⟩) split
      (found ▸ Option.some_ne_none _)
    have blocked : files.get? (top ++ namesOf above ++ [name]) = some (.file contents) := by
      rw [List.append_assoc, ← split, mirrors.get?_eq other (tidy.of_prefix ⟨rest, whole⟩), found]
    exact FileTree.isDirectory_of_find_eq_error
      (FileTree.find_of_blocked reaches opened onward blocked)
  · by_contra present
    rw [closed.node?_of_prefix consistent present ⟨rest, whole⟩ different] at found
    exact nomatch found

theorem read_of_node? (current : Location) {contents : ByteArray}
    (found : tree.node? path = some (.file contents)) :
    files.read current (placeOf root path) = .ok contents := by
  have tidy := fits.isTidy
  have filled := closed.ne_empty_of_file consistent found
  obtain ⟨above, name, split⟩ := tidy.exists_split filled
  have reaches : (placeOf root path).Reaches (top ++ namesOf path) := fits
  have there := mirrors.get?_eq path tidy
  rw [split, ← List.append_assoc] at reaches there
  have opened := mirrors.isOpen_of_split closed consistent tidy split
    (found ▸ Option.some_ne_none _)
  exact FileTree.read_of_file opened reaches (fits.endsWith_placeOf filled) (there.trans found)

/-- The names in a directory on disk are those in memory. -/
theorem exists_list (current : Location) (found : tree.node? path = some .directory) :
    ∃ names, files.list current (placeOf root path) = .ok names ∧
      ∀ name isDirectory,
        (name, isDirectory) ∈ names ↔ (⟨name, isDirectory⟩ : PathElement) ∈ tree.children path := by
  have tidy := fits.isTidy
  have reaches : (placeOf root path).Reaches (top ++ namesOf path) := fits
  have opened := mirrors.isOpen_of_directory closed consistent tidy found
  refine ⟨_, FileTree.list_of_isOpen opened reaches, ?_⟩
  intro name isDirectory
  rw [List.mem_map, PackageTree.mem_children consistent]
  constructor
  · rintro ⟨⟨_, node⟩, member, same⟩
    obtain ⟨rfl, rfl⟩ := Prod.mk.inj same
    have held := (FileTree.mem_children mirrors.isRegular).mp member
    rw [List.append_assoc] at held
    obtain ⟨other, otherTidy, split⟩ := mirrors.exists_path _ node held
    obtain ⟨isName, rfl⟩ := otherTidy.eq_child split
    rw [split, mirrors.get?_eq _ otherTidy] at held
    exact ⟨isName, node, held, rfl⟩
  · rintro ⟨isName, node, held, rfl⟩
    refine ⟨(name, node), (FileTree.mem_children mirrors.isRegular).mpr ?_, rfl⟩
    rw [List.append_assoc, ← PackageTree.namesOf_child isName,
      mirrors.get?_eq _ (tidy.child isName), held]

end

/-- That two packages, asked in a world, give the same answers about a path. -/
structure AgreesAt (first second : StoredPackage) (world : World) (path : String) : Prop where
  kind? : ∃ kind, (first.kind? path).runIn world = (.ok kind, world) ∧
    (second.kind? path).runIn world = (.ok kind, world)
  read : (second.kind? path).runIn world = (.ok (some .file), world) →
    ∃ contents, (first.read path).runIn world = (.ok contents, world) ∧
      (second.read path).runIn world = (.ok contents, world)
  children : (second.kind? path).runIn world = (.ok (some .directory), world) →
    ∃ elements others, (first.children path).runIn world = (.ok elements, world) ∧
      (second.children path).runIn world = (.ok others, world) ∧
      ∀ element, element ∈ elements ↔ element ∈ others

theorem runIn_kind?_held (tree : PackageTree) (path : String) (world : World) :
    ((held tree).kind? path).runIn world =
      (.ok ((tree.node? path).map fun node => if node.isDirectory then .directory else .file),
        world) := by
  rw [← PackageTree.kind?_eq]
  rfl

theorem exists_node_of_kind? {world : World} {kind : ElementKind}
    (answered : ((held tree).kind? path).runIn world = (.ok (some kind), world)) :
    ∃ node, tree.node? path = some node ∧
      (if node.isDirectory then ElementKind.directory else .file) = kind := by
  rw [runIn_kind?_held] at answered
  exact Option.map_eq_some_iff.mp (Except.ok.inj (congrArg Prod.fst answered))

theorem runIn_read_extracted {world : World} {contents : ByteArray}
    (found : world.tree.read world.current (placeOf root path) = .ok contents) :
    ((extracted root).read path).runIn world = (.ok contents, world) := by
  have asked : (Action.request (.read (placeOf root path))).run world =
      (world.tree.read world.current (placeOf root path), world) := rfl
  rw [read, Attempt.runIn_files, asked, found]
  rfl

theorem runIn_children_extracted {world : World} {names : List (String × Bool)}
    (found : world.tree.list world.current (placeOf root path) = .ok names) :
    ((extracted root).children path).runIn world =
      (.ok (names.map fun entry => ⟨entry.1, entry.2⟩), world) := by
  have asked : (Action.request (.list (placeOf root path))).run world =
      (world.tree.list world.current (placeOf root path), world) := rfl
  rw [children, Attempt.runIn_bind, Attempt.runIn_files, asked, found]
  rfl

theorem agreesAt_of_mirrors {world : World} (mirrors : Mirrors start top tree world.tree)
    (closed : tree.IsClosed) (consistent : tree.IsConsistent) (fits : Fits root top path)
    (clear : tree.IsClear path) : (extracted root).AgreesAt (held tree) world path where
  kind? := by
    rw [runIn_kind?_held, runIn_kind?,
      isDirectory_of_isClear mirrors closed consistent fits _ clear]
    cases tree.node? path <;> exact ⟨_, rfl, rfl⟩
  read answered := by
    obtain ⟨node, found, isFile⟩ := exists_node_of_kind? answered
    cases node with
    | file contents =>
        refine ⟨contents, runIn_read_extracted
          (read_of_node? mirrors closed consistent fits _ found), ?_⟩
        rw [read, PackageTree.node?_eq_file_iff.mp found]
        rfl
    | directory => exact nomatch isFile
    | link target => exact absurd found (tree.node?_ne_link path target)
  children answered := by
    obtain ⟨node, found, isDirectory⟩ := exists_node_of_kind? answered
    cases node with
    | directory =>
        obtain ⟨names, listed, same⟩ := exists_list mirrors closed consistent fits _ found
        refine ⟨_, _, runIn_children_extracted listed, rfl, ?_⟩
        rintro ⟨name, isDirectory⟩
        rw [← same, List.mem_map]
        constructor
        · rintro ⟨entry, member, whole⟩
          obtain ⟨rfl, rfl⟩ := PathElement.mk.inj whole
          exact member
        · exact fun member => ⟨_, member, rfl⟩
    | file contents => exact nomatch isDirectory
    | link target => exact nomatch isDirectory

end StoredPackage

/-! ## Two ways of keeping -/

namespace Storage

variable {world : World} {cache : Path} {package : PackageUri} {directory place : Location}
  {archive : ByteArray}

/-- An archive is kept on disk exactly if it is kept in memory as a consistent tree.  Then both
packages give the same answers about every path that does not lead through a file; about a path
through a file, only the one in memory says that nothing is there. -/
theorem kept_alike [ArchiveReader] (room : HasRoom world cache package directory place)
    (accommodates : Accommodates (nextStaging world cache) (stagingPlace world directory) package
      archive) :
    ((∃ stored, (((Storage.disk cache).keep package archive).runIn world).1 = .ok stored) ↔
        ∃ tree, ((Storage.memory.keep package archive).runIn world).1 = .ok (.held tree) ∧
          tree.IsConsistent) ∧
      ∀ stored after tree,
        (((Storage.disk cache).keep package archive).runIn world).1 = .ok stored →
        (((Storage.disk cache).keep package archive).runIn world).2 = after →
        ((Storage.memory.keep package archive).runIn world).1 = .ok (.held tree) →
        ∀ path, StoredPackage.Fits (package.cachePath cache) (directory ++ "package-1" :: place)
            path →
          (tree.IsClear path → stored.AgreesAt (.held tree) after path) ∧
          (¬ tree.IsClear path →
            (stored.kind? path).runIn after =
                (.error (.io (.stat (StoredPackage.placeOf (package.cachePath cache) path).text)
                  (.refused .notADirectory)), after) ∧
              ((StoredPackage.held tree).kind? path).runIn after = (.ok none, after)) := by
  simp only [keep_memory_eq_ok_iff]
  rw [keep, Attempt.runIn_bind]
  rcases runIn_materialize room accommodates with
    ⟨tree, files, made, closed, consistent, mirrors, ran⟩ | ⟨inconsistent, failure, after, ran⟩
  · rw [ran]
    simp only [Attempt.runIn_pure]
    refine ⟨iff_of_true ⟨_, rfl⟩ ⟨tree, made, consistent⟩, ?_⟩
    rintro stored after other kept rfl also path fits
    obtain rfl := Except.ok.inj kept
    obtain rfl := Except.ok.inj (made.symm.trans also)
    constructor
    · exact StoredPackage.agreesAt_of_mirrors mirrors closed consistent fits
    · intro obstructed
      obtain ⟨stopped, absent⟩ := StoredPackage.isDirectory_of_not_isClear mirrors closed
        consistent fits world.current obstructed
      rw [StoredPackage.runIn_kind?, StoredPackage.runIn_kind?_held, stopped, absent]
      exact ⟨rfl, rfl⟩
  · rw [ran]
    refine ⟨iff_of_false nofun ?_, nofun⟩
    rintro ⟨tree, made, consistent⟩
    exact inconsistent tree made consistent

/-! ## Archives that are told apart -/

/-- The world with an empty cache directory. -/
def shelf : World :=
  { World.empty with tree := ⟨[(["cache"], .directory)]⟩ }

/-- An archive with an empty file `a`. -/
def twig : ByteArray :=
  ⟨#[80, 75, 3, 4, 20, 0, 0, 0, 0, 0, 0, 0, 33, 0, 0, 0, 0, 0, 0, 0, 0, 0, 0, 0, 0, 0, 1, 0, 0, 0,
    97, 80, 75, 1, 2, 20, 3, 20, 0, 0, 0, 0, 0, 0, 0, 33, 0, 0, 0, 0, 0, 0, 0, 0, 0, 0, 0, 0, 0,
    1, 0, 0, 0, 0, 0, 0, 0, 0, 0, 0, 0, 128, 1, 0, 0, 0, 0, 97, 80, 75, 5, 6, 0, 0, 0, 0, 1, 0, 1,
    0, 47, 0, 0, 0, 31, 0, 0, 0, 0, 0]⟩

/-- An archive with empty files `a` and `a/b`. -/
def branch : ByteArray :=
  ⟨#[80, 75, 3, 4, 20, 0, 0, 0, 0, 0, 0, 0, 33, 0, 0, 0, 0, 0, 0, 0, 0, 0, 0, 0, 0, 0, 1, 0, 0, 0,
    97, 80, 75, 3, 4, 20, 0, 0, 0, 0, 0, 0, 0, 33, 0, 0, 0, 0, 0, 0, 0, 0, 0, 0, 0, 0, 0, 3, 0, 0,
    0, 97, 47, 98, 80, 75, 1, 2, 20, 3, 20, 0, 0, 0, 0, 0, 0, 0, 33, 0, 0, 0, 0, 0, 0, 0, 0, 0, 0,
    0, 0, 0, 1, 0, 0, 0, 0, 0, 0, 0, 0, 0, 0, 0, 128, 1, 0, 0, 0, 0, 97, 80, 75, 1, 2, 20, 3, 20,
    0, 0, 0, 0, 0, 0, 0, 33, 0, 0, 0, 0, 0, 0, 0, 0, 0, 0, 0, 0, 0, 3, 0, 0, 0, 0, 0, 0, 0, 0, 0,
    0, 0, 128, 1, 31, 0, 0, 0, 97, 47, 98, 80, 75, 5, 6, 0, 0, 0, 0, 2, 0, 2, 0, 96, 0, 0, 0, 64,
    0, 0, 0, 0, 0]⟩

theorem shelf_hasRoom :
    HasRoom shelf ⟨"/cache"⟩ .birds ["cache"] ["localhost:0", "birds@1.0.0"] where
  isRegular := ⟨by simp [FileTree.IsLinkFree, shelf], by simp [shelf]⟩
  isOpen := (FileTree.isOpen_nil shelf.tree).concat rfl
  unused rest filled := by
    cases rest with
    | nil => exact absurd rfl filled
    | cons name rest => simp [FileTree.get?, shelf, List.lookup_cons]
  area := by decide +kernel
  staging := by decide +kernel
  root := by decide +kernel

theorem isSound_shelf : shelf.IsSound where
  isClosed := by
    intro above name present
    have inside : above ++ [name] ≠ [] := by simp
    have shelved (above : Location) : shelf.tree.get? above =
        if above = [] then some .directory else
          [(["cache"], FileNode.directory)].lookup above := rfl
    cases above with
    | nil => exact FileTree.get?_nil _
    | cons first rest =>
        rw [shelved, if_neg inside, Association.lookup_cons_of_ne (by simp)] at present
        exact absurd rfl present
  isDirectory := FileTree.get?_nil _
  isAlphanumeric := by
    intro count letter member
    have digits : (shelf.letters count).toList = Nat.toDigits 10 count := by
      change (toString count).toList = _
      rw [Nat.toString_eq_repr, Nat.toList_repr]
    rw [digits] at member
    have isDigit := Nat.isDigit_of_mem_toDigits (by decide) (by decide) member
    rw [Char.isAlphanum, isDigit, Bool.or_true]

/-- The twig is kept alike. -/
theorem twig_kept_alike :
    ∃ stored tree,
      (((Storage.disk ⟨"/cache"⟩).keep .birds twig).runIn shelf).1 = .ok stored ∧
      ((Storage.memory.keep .birds twig).runIn shelf).1 = .ok (.held tree) ∧
      stored.AgreesAt (.held tree) (((Storage.disk ⟨"/cache"⟩).keep .birds twig).runIn shelf).2
        "a" := by
  have accommodates : Accommodates (nextStaging shelf ⟨"/cache"⟩) (stagingPlace shelf ["cache"])
      .birds twig := by
    have all : ∀ entry ∈ (openArchive .birds twig).toOption.getD [], ∀ path ∈ entry.path?,
        StoredPackage.Fits (nextStaging shelf ⟨"/cache"⟩) (stagingPlace shelf ["cache"]) path := by
      decide +kernel
    intro entries opened
    rw [opened] at all
    exact all
  have parts : (treeOfArchive .birds twig).map (fun tree => (tree.files, tree.directories)) =
      .ok ([("a", .empty)], [""]) := by decide +kernel
  obtain ⟨tree, made, whole⟩ := Result.map_eq_ok_iff.mp parts
  obtain ⟨files, directories⟩ := Prod.mk.inj whole
  have consistent : tree.IsConsistent := by
    rw [PackageTree.IsConsistent, files, directories]
    decide
  have clear : tree.IsClear "a" := by
    intro above _ different
    rw [files, Association.lookup_cons_of_ne different]
    rfl
  obtain ⟨kept, alike⟩ := kept_alike shelf_hasRoom accommodates
  have held : ((Storage.memory.keep .birds twig).runIn shelf).1 = .ok (.held tree) :=
    keep_memory_eq_ok_iff.mpr made
  obtain ⟨stored, ok⟩ := kept.mpr ⟨tree, held, consistent⟩
  have fits : StoredPackage.Fits (PackageUri.birds.cachePath ⟨"/cache"⟩)
      (["cache"] ++ "package-1" :: ["localhost:0", "birds@1.0.0"]) "a" := by decide +kernel
  exact ⟨stored, tree, ok, held, (alike stored _ tree ok rfl held "a" fits).1 clear⟩

/-- Where a file is above a path, memory says that nothing is there and the disk fails.  An
archive in which it is above an entry can be kept in memory and not on disk. -/
theorem files_above_told_apart :
    ((Storage.memory.keep .birds twig >>= (·.kind? "a/b")).runIn shelf).1 = .ok none ∧
      (((Storage.disk ⟨"/cache"⟩).keep .birds twig >>= (·.kind? "a/b")).runIn shelf).1 =
        .error (.io (.stat "/cache/package-1/localhost:0/birds@1.0.0/a/b")
          (.refused .notADirectory)) ∧
      ((Storage.memory.keep .birds branch >>= (·.kind? "a")).runIn shelf).1 = .ok (some .file) ∧
      (((Storage.disk ⟨"/cache"⟩).keep .birds branch >>= (·.kind? "a")).runIn shelf).1 =
        .error (.io (.create "/cache/tmp/package-0/a") (.refused .exists)) := by
  refine ⟨?_, ?_, ?_, ?_⟩ <;> decide +kernel

end Storage

end PackageResolution

import PackageResolution.Proofs.Storage.Mirror

/-!
# Putting a package in its place

In an empty cache directory an archive is extracted in the staging area and moved to the place
of its package, where nothing is in the way.  So the package is kept exactly if its entries
agree with each other, and then its directory holds what the tree in memory holds.
-/

namespace PackageResolution

open FileTree (Apart Mirrors Opens)

namespace Storage

/-! ## Extracting -/

/-- The path of the directory in which the next package is put together. -/
def nextStaging (world : World) (cache : Path) : Path :=
  (stagingArea cache).join ⟨"package-" ++ world.letters world.lettersUsed⟩

/-- The place of that directory in a cache directory. -/
def stagingPlace (world : World) (directory : Location) : Location :=
  directory ++ ["tmp"] ++ ["package-" ++ world.letters world.lettersUsed]

/-- That a cache directory is there and empty, in a tree of files without links, and that a file
system can hold the places in it that a package needs. -/
structure HasRoom (world : World) (cache : Path) (package : PackageUri) (directory : Location)
    (place : Location) : Prop where
  isRegular : world.tree.IsRegular
  isOpen : world.tree.IsOpen directory
  unused : ∀ rest, rest ≠ [] → world.tree.get? (directory ++ rest) = none
  area : (stagingArea cache).Reaches (directory ++ ["tmp"])
  staging : (nextStaging world cache).Reaches (stagingPlace world directory)
  root : (package.cachePath cache).Reaches (directory ++ "package-1" :: place)

variable {world : World} {cache : Path} {package : PackageUri} {directory place : Location}

/-- In an empty cache directory nothing is in the way. -/
theorem HasRoom.isFree (room : HasRoom world cache package directory place) (rest : Location) :
    world.tree.IsFree (directory ++ rest) := by
  intro other contents begun found
  rcases FileTree.prefix_append_cases begun with before | ⟨more, rfl, -⟩
  · rw [room.isOpen other before] at found
    exact nomatch found
  · by_cases nothing : more = []
    · rw [nothing, List.append_nil, room.isOpen _ (List.prefix_refl _)] at found
      exact nomatch found
    · rw [room.unused more nothing] at found
      exact nomatch found

/-- The staging area and a new directory in it are created. -/
theorem HasRoom.exists_staged (room : HasRoom world cache package directory place) :
    ∃ area tree : FileTree,
      (createStagingArea cache).runIn world = (.ok (), { world with tree := area }) ∧
      (Action.createTemporaryDirectory (stagingArea cache) "package-").run
          { world with tree := area } =
        (.ok (nextStaging world cache),
          { world with tree, lettersUsed := world.lettersUsed + 1 }) ∧
      Mirrors tree (stagingPlace world directory) .empty tree ∧
      ∀ other, ¬ directory ++ ["tmp"] <+: other → tree.get? other = world.tree.get? other := by
  rcases Attempt.runIn_createDirectories (.createStagingArea (stagingArea cache).text)
    room.isRegular room.area with ⟨-, area, opens, created⟩ | ⟨blocked, -⟩
  swap
  · exact absurd (room.isFree ["tmp"]) blocked
  have fresh (rest : Location) : area.get? (stagingPlace world directory ++ rest) = none := by
    rw [opens.get?_of_not_prefix]
    · rw [stagingPlace, List.append_assoc, List.append_assoc]
      exact room.unused _ (by simp)
    · intro start
      exact FileTree.not_append_prefix (List.cons_ne_nil _ _)
        ((List.prefix_append _ rest).trans start)
  have vacant := fresh []
  rw [List.append_nil] at vacant
  have staged : Opens (stagingPlace world directory) area
      (area.insert (stagingPlace world directory) .directory) :=
    FileTree.opens_insert opens.isRegular opens.isOpen
  refine ⟨area, _, created, ?_, FileTree.mirrors_empty staged.isRegular staged.isOpen ?_, ?_⟩
  · exact Action.run_createTemporaryDirectory room.area.isAbsolute room.staging opens.isOpen vacant
  · intro rest filled
    rw [staged.get?_of_not_prefix (FileTree.not_append_prefix filled), fresh]
  · intro other outside
    have above (start : other <+: stagingPlace world directory) :
        world.tree.get? other = some .directory := by
      rcases List.prefix_concat_iff.mp start with rfl | start
      · exact absurd (List.prefix_append _ _) outside
      rcases List.prefix_concat_iff.mp start with rfl | start
      · exact absurd (List.prefix_refl _) outside
      · exact room.isOpen other start
    rw [staged.get?_eq, opens.get?_eq]
    split
    · rename_i start
      exact (above start).symm
    · split
      · rename_i start
        exact (above (start.trans (List.prefix_append _ _))).symm
      · rfl

/-! ## Publishing -/

variable {staging root : Path} {top goal : Location} {start : FileTree} {tree : PackageTree}
  {name : String}

/-- A package is moved to a place where nothing is, to which no file is in the way.  Directories
elsewhere stay where they are. -/
theorem exists_published (mirrors : start.Mirrors top tree world.tree)
    (begins : staging.Reaches top) (ends : root.Reaches (goal ++ [name]))
    (free : world.tree.IsFree goal) (vacant : world.tree.get? (goal ++ [name]) = none)
    (apart : Apart top (goal ++ [name])) :
    ∃ files, (publish staging root).runIn world = (.ok (), { world with tree := files }) ∧
      Mirrors files (goal ++ [name]) tree files ∧ files.get? top = none ∧
      ∀ other, ¬ top <+: other → ¬ goal ++ [name] <+: other →
        world.tree.get? other = some .directory → files.get? other = some .directory := by
  rcases runIn_createParent mirrors.isRegular ends with
    ⟨-, parent, opens, created⟩ | ⟨blocked, -⟩
  swap
  · exact absurd free blocked
  have kept : Mirrors parent top tree parent :=
    mirrors.of_opens opens fun below => apart.1 (below.trans (List.prefix_append _ _))
  have stillVacant : parent.get? (goal ++ [name]) = none := by
    rw [opens.get?_of_not_prefix (FileTree.not_append_prefix (List.cons_ne_nil _ _)), vacant]
  have inside : top ≠ [] := by
    rintro rfl
    exact apart.1 List.nil_prefix
  have moved : parent.rename world.current staging root = .ok (parent.move top (goal ++ [name])) :=
    FileTree.rename_of_vacant begins kept.isOpen ends opens.isOpen stillVacant apart.1
  have renamed : (Action.request (.rename staging root)).run { world with tree := parent } =
      (.ok (), { world with tree := parent.move top (goal ++ [name]) }) := by
    have asked : (Action.request (.rename staging root)).run { world with tree := parent } =
        { world with tree := parent }.change (·.rename · staging root) := rfl
    simp only [asked, World.change, moved]
  refine ⟨_, ?_, kept.move opens.isOpen apart,
    FileTree.get?_move_source inside apart (List.prefix_refl _), ?_⟩
  · rw [publish, Attempt.runIn_bind, created]
    simp only [Attempt.runIn_bind, Attempt.runIn_lift, renamed, Attempt.runIn_pure]
  · intro other outside apartToo found
    rw [FileTree.get?_move outside apartToo, opens.get?_eq]
    split
    · rfl
    · exact found

theorem runIn_clearing (attempt : Attempt Unit) (world : World) :
    (clearing staging attempt).runIn world =
      ((attempt.runIn world).1,
        ((Action.request (.removeTree staging)).run (attempt.runIn world).2).2) := by
  rw [clearing, Attempt.runIn, ExceptT.run_mk, Action.run_bind, Action.run_bind]
  rfl

/-! ## Keeping -/

theorem apart_areas (directory place : Location) :
    Apart (directory ++ ["tmp"]) (directory ++ "package-1" :: place) := by
  have other : "tmp" ≠ "package-1" := by decide
  rw [Apart, List.prefix_append_right_inj, List.prefix_append_right_inj, List.cons_prefix_cons,
    List.cons_prefix_cons]
  exact ⟨fun start => other start.1, fun start => other start.1.symm⟩

/-- What was put together in the staging area is published, and nothing is left of it there. -/
theorem HasRoom.exists_moved (room : HasRoom world cache package directory place)
    {staged : FileTree} (later : World)
    (elsewhere : ∀ other, ¬ directory ++ ["tmp"] <+: other →
      staged.get? other = world.tree.get? other)
    (mirrors : Mirrors staged (stagingPlace world directory) tree later.tree) :
    ∃ files,
      (publish (nextStaging world cache) (package.cachePath cache)).runIn later =
        (.ok (), { later with tree := files }) ∧
      Mirrors files (directory ++ "package-1" :: place) tree files ∧
      files.removeTree later.current (nextStaging world cache) = .error .notFound := by
  have areas := apart_areas directory place
  have begun : directory ++ ["tmp"] <+: stagingPlace world directory := List.prefix_append _ _
  have kept (other : Location) (outside : ¬ directory ++ ["tmp"] <+: other) :
      later.tree.get? other = world.tree.get? other := by
    rw [mirrors.get?_outside other fun below => outside (begun.trans below), elsewhere other outside]
  obtain ⟨goal, name, split⟩ : ∃ goal name,
      directory ++ "package-1" :: place = directory ++ goal ++ [name] := by
    rcases List.eq_nil_or_concat ("package-1" :: place) with none | ⟨goal, name, split⟩
    · exact nomatch none
    · exact ⟨goal, name, by rw [split, List.concat_eq_append, List.append_assoc]⟩
  have ends := room.root
  rw [split] at ends areas ⊢
  have apart : Apart (stagingPlace world directory) (directory ++ goal ++ [name]) :=
    ⟨fun below => areas.1 (begun.trans below), fun above => areas.not_prefix above begun⟩
  have free : later.tree.IsFree (directory ++ goal) := by
    intro other contents start found
    rw [kept other] at found
    · exact room.isFree goal other contents start found
    · exact fun below => areas.1 (below.trans (start.trans (List.prefix_append _ _)))
  have vacant : later.tree.get? (directory ++ goal ++ [name]) = none := by
    rw [kept _ areas.1, ← split]
    exact room.unused _ (List.cons_ne_nil _ _)
  obtain ⟨files, published, there, gone, others⟩ :=
    Storage.exists_published mirrors room.staging ends free vacant apart
  refine ⟨files, published, there, FileTree.removeTree_of_vacant room.staging ?_ gone⟩
  intro other start
  apply others other
  · exact fun below => FileTree.not_append_prefix (List.cons_ne_nil _ _) (below.trans start)
  · exact fun above => areas.2 (above.trans start)
  · exact mirrors.isOpen other (start.trans begun)

/-! ## Keeping -/

variable {archive : ByteArray}

/-- A package is kept on disk exactly if it is kept in memory as a consistent tree, and then its
directory holds that tree. -/
theorem runIn_materialize [ArchiveReader] (room : HasRoom world cache package directory place)
    (accommodates : Accommodates (nextStaging world cache) (stagingPlace world directory) package
      archive) :
    (∃ tree files, treeOfArchive package archive = .ok tree ∧ tree.IsClosed ∧ tree.IsConsistent ∧
        Mirrors files (directory ++ "package-1" :: place) tree files ∧
        (materialize cache package archive).runIn world = (.ok (package.cachePath cache),
          { world with tree := files, lettersUsed := world.lettersUsed + 1 })) ∨
      (∀ tree, treeOfArchive package archive = .ok tree → ¬ tree.IsConsistent) ∧
        ∃ failure after,
          (materialize cache package archive).runIn world = (.error failure, after) := by
  obtain ⟨area, staged, created, named, mirrors, elsewhere⟩ := room.exists_staged
  rw [materialize, Attempt.runIn_bind, created]
  simp only [Attempt.runIn_bind, Attempt.runIn_lift, named, runIn_clearing]
  have tallies : Tallies staged (stagingPlace world directory)
      { world with tree := staged, lettersUsed := world.lettersUsed + 1 }
      (treeOfArchive package archive)
      ((extract package archive (nextStaging world cache)).runIn
        { world with tree := staged, lettersUsed := world.lettersUsed + 1 }) :=
    tallies_extract accommodates mirrors
  generalize (extract package archive (nextStaging world cache)).runIn
    { world with tree := staged, lettersUsed := world.lettersUsed + 1 } = extracted at tallies ⊢
  generalize treeOfArchive package archive = result at tallies ⊢
  cases tallies with
  | failed inconsistent => exact .inr ⟨inconsistent, _, _, rfl⟩
  | @kept tree files closed consistent mirrors =>
      obtain ⟨final, published, there, gone⟩ := room.exists_moved
        { world with tree := files, lettersUsed := world.lettersUsed + 1 } elsewhere mirrors
      have cleared : ((Action.request (.removeTree (nextStaging world cache))).run
          { world with tree := final, lettersUsed := world.lettersUsed + 1 }).2 =
            { world with tree := final, lettersUsed := world.lettersUsed + 1 } := by
        have asked : (Action.request (.removeTree (nextStaging world cache))).run
            { world with tree := final, lettersUsed := world.lettersUsed + 1 } =
              { world with tree := final, lettersUsed := world.lettersUsed + 1 }.change
                (·.removeTree · (nextStaging world cache)) := rfl
        simp only at gone
        simp only [asked, World.change, gone]
      refine .inl ⟨tree, final, rfl, closed, consistent, there, ?_⟩
      simp only [published, cleared, Attempt.runIn_pure]

end Storage

end PackageResolution

import PackageResolution.Archive.Zip
import PackageResolution.Proofs.Action.Files
import PackageResolution.Proofs.Package.Location
import PackageResolution.Proofs.Resolver.Run

/-!
# What keeping a package leaves alone

A package is put together in the staging area of the cache and moved to its place.  So what
meets neither the staging area nor the place of the package stays as it is: in particular
the directory of another package, if the places of the two packages do not meet.
-/

namespace PackageResolution

open FileTree (Apart)

/-! ## Entries -/

/-- The path of an entry is made of names. -/
theorem ArchiveEntry.exists_names {entry : ArchiveEntry} {path : String}
    (found : entry.path? = some path) :
    Path.isAbsolute ⟨path⟩ = false ∧
      ∃ names : List String, Path.steps ⟨path⟩ = names.map .named := by
  rw [path?, pathOfName?, Option.map_eq_some_iff] at found
  rcases found with ⟨normal, whole, same⟩
  have rooted : Text.beginsWith '/' ("/" ++ Text.replace '\\' '/' entry.name) = true := by
    simp [Text.beginsWith]
  rw [← same]
  constructor
  · exact Text.beginsWith_trim '/' normal
  · apply Path.exists_names
    rw [Path.steps_trim, Path.parent_mem_steps_iff]
    intro climbs
    have among : ".." ∈ Text.fields '/' normal := climbs
    rw [← UriPath.removeDots_of_normalize? whole] at among
    exact (UriPath.isPlain_of_removeDots rooted among).2 rfl

namespace Storage

theorem path?_of_entryPath {package : PackageUri} {entry : ArchiveEntry} {path : String}
    (read : entryPath package entry = .ok path) : entry.path? = some path := by
  unfold entryPath at read
  split at read
  · exact nomatch read
  · split at read
    · rename_i found
      obtain rfl := Except.ok.inj read
      exact found
    · exact nomatch read

variable {top names directory : Location} {cache path : Path} {package : PackageUri}

theorem asks_createParent (written : path.IsAt names) (outside : ¬ top <+: names) :
    (createParent path).Asks (Request.Spares top) fun _ => True := by
  unfold createParent
  split
  · rename_i above found
    rcases written.of_parent? found with ⟨others, there, start⟩
    exact Attempt.asks_createDirectories there fun below => outside (below.trans start)
  · exact Attempt.asks_pure trivial

/-- An entry is written below the directory that it is extracted to. -/
theorem asks_extractEntry (written : path.IsAt names) (outside : ∀ rest, ¬ top <+: names ++ rest)
    (entry : ArchiveEntry) :
    (extractEntry package path entry).Asks (Request.Spares top) fun _ => True := by
  apply (Attempt.asks_ofResult fun _ => path?_of_entryPath).bind
  intro text found
  split
  · exact Attempt.asks_pure trivial
  rcases entry.exists_names found with ⟨relative, others, steps⟩
  have there : (path.join ⟨text⟩).IsAt (names ++ others) := written.join relative steps
  have write (contents : ByteArray) : Attempt.Asks (Request.Spares top) (fun _ => True)
      (Attempt.files (.create (path.join ⟨text⟩).text)
        (Action.request (.write (path.join ⟨text⟩) contents))) := by
    have permitted : Request.Spares top (.write (path.join ⟨text⟩) contents) :=
      ⟨_, there, outside others⟩
    exact Attempt.asks_files (Action.asks_request_only permitted)
  split
  · exact Attempt.asks_createDirectories there (outside others)
  · apply (asks_createParent there (outside others)).bind
    intro _ _
    split
    · exact write _
    · exact (write _).bind fun _ _ => Attempt.asks_throw _
    · exact Attempt.asks_throw _

theorem asks_extract [ArchiveReader] (written : path.IsAt names)
    (outside : ∀ rest, ¬ top <+: names ++ rest) (archive : ByteArray) :
    (extract package archive path).Asks (Request.Spares top) fun _ => True := by
  apply (Attempt.asks_ofResult fun _ _ => trivial).bind
  intro entries _
  exact Attempt.asks_forM fun entry _ => asks_extractEntry written outside entry

/-! ## Packages and documents -/

theorem asks_publish {staging root : Path} {others : Location} (written : staging.IsAt names)
    (goal : root.IsAt others) (aside : Apart names top) (goalAside : Apart others top) :
    (publish staging root).Asks (Request.Spares top) fun _ => True := by
  apply (asks_createParent goal goalAside.2).bind
  intro _ _
  apply (Attempt.asks_lift
    (Action.asks_request ⟨⟨_, written, aside⟩, others, goal, goalAside⟩)).bind
  rintro (refusal | ⟨⟩) -
  · apply (Attempt.asks_lift (Action.asks_leadsToDirectory root)).bind
    intro answer _
    split
    · exact Attempt.asks_pure trivial
    · exact Attempt.asks_throw _
  · exact Attempt.asks_pure trivial

theorem asks_clearing {staging : Path} {attempt : Attempt Unit} (written : staging.IsAt names)
    (aside : Apart names top) (asks : attempt.Asks (Request.Spares top) fun _ => True) :
    (clearing staging attempt).Asks (Request.Spares top) fun _ => True := by
  apply Action.Asks.bind asks
  intro result _
  apply Action.asks_request_bind ⟨_, written, aside⟩
  intro _ _
  exact Action.asks_pure fun _ _ => trivial

theorem stagingArea_isAt (kept : cache.IsAt directory) :
    (stagingArea cache).IsAt (directory ++ ["tmp"]) :=
  kept.join_name (by decide) (by decide)

theorem asks_createStagingArea (kept : cache.IsAt directory)
    (aside : ∀ rest, Apart (directory ++ "tmp" :: rest) top) :
    (createStagingArea cache).Asks (Request.Spares top) fun _ => True :=
  Attempt.asks_createDirectories (stagingArea_isAt kept) (aside []).2

/-- A package is extracted in the staging area and moved to its place. -/
theorem asks_materialize [ArchiveReader] (kept : cache.IsAt directory) {others : Location}
    (goal : (package.cachePath cache).IsAt others)
    (aside : ∀ rest, Apart (directory ++ "tmp" :: rest) top) (goalAside : Apart others top)
    (archive : ByteArray) :
    (materialize cache package archive).Asks (Request.Spares top) fun _ => True := by
  have below (rest : Location) : Apart (directory ++ ["tmp"] ++ rest) top := by
    rw [List.append_assoc]
    exact aside rest
  unfold materialize
  generalize package.cachePath cache = root at goal ⊢
  apply (asks_createStagingArea kept aside).bind
  intro _ _
  have named (letters : String) : Path.IsName ("package-" ++ letters) := by
    have letter : 'p' ∈ ("package-" ++ letters).toList := by simp
    exact Path.isName_of_mem letter (by decide)
  apply (Attempt.asks_lift (Action.asks_createTemporaryDirectory (stagingArea_isAt kept) named
    (by decide) fun name => (below [name]).2)).bind
  rintro (cause | staging) place
  · exact Attempt.asks_throw _
  rcases place staging rfl with ⟨name, there⟩
  have outside (rest : Location) : ¬ top <+: directory ++ ["tmp"] ++ [name] ++ rest := by
    rw [List.append_assoc]
    exact (below (name :: rest)).2
  have extracted : (extract package archive staging).Asks (Request.Spares top) fun _ => True :=
    asks_extract there outside archive
  apply (asks_clearing there (below [name]) (extracted.bind fun _ _ =>
    asks_publish there goal (below [name]) goalAside)).bind
  intro _ _
  exact Attempt.asks_pure trivial

/-- A metadata document is written in the staging area and moved to its place. -/
theorem asks_storeMetadata (kept : cache.IsAt directory) {others : Location}
    (goal : (package.metadataCachePath cache).IsAt others)
    (aside : ∀ rest, Apart (directory ++ "tmp" :: rest) top) (goalAside : Apart others top)
    (document : ByteArray) :
    (storeMetadata cache package document).Asks (Request.Spares top) fun _ => True := by
  unfold storeMetadata
  generalize package.metadataCachePath cache = path at goal ⊢
  apply (asks_createParent goal goalAside.2).bind
  intro _ _
  apply (asks_createStagingArea kept aside).bind
  intro _ _
  apply Attempt.asks_writeThrough (stagingArea_isAt kept) goal _ goalAside
  intro name
  rw [List.append_assoc]
  exact aside [name]

/-! ## Packages that are not there -/

/-- Where there is no directory at the place of a package, the package is not found. -/
theorem package?_eq_none {world : World} {place : Location} (linkFree : world.tree.IsLinkFree)
    (there : (package.cachePath cache).IsAt place)
    (absent : world.tree.get? place ≠ some .directory) :
    (((Storage.disk cache).package? package).runIn world).1 = .ok none := by
  have refused : (Action.leadsToDirectory (package.cachePath cache)).run world =
      (false, world) := by
    have other : world.tree.isDirectory world.current (package.cachePath cache) ≠ .ok true :=
      FileTree.isDirectory_ne_ok_true linkFree there absent
    rw [Action.leadsToDirectory, Action.run_bind]
    have asked : (Action.request (.isDirectory (package.cachePath cache))).run world =
        (world.tree.isDirectory world.current (package.cachePath cache), world) := rfl
    rw [asked]
    cases answer : world.tree.isDirectory world.current (package.cachePath cache) with
    | error refusal => rfl
    | ok isDirectory =>
        cases isDirectory with
        | false => rfl
        | true => exact absurd answer other
  have unknown : (storedRoot? cache package).run world = (none, world) := by
    simp only [storedRoot?, Action.run_bind, refused]
    rfl
  simp only [package?, Attempt.runIn_bind, Attempt.runIn_lift, unknown]
  rfl

end Storage

/-! ## Packages that are not disturbed -/

theorem World.isPlain_empty : World.empty.IsPlain := by
  refine ⟨FileTree.isLinkFree_empty, ?_⟩
  intro count member
  have digits : (World.empty.letters count).toList = Nat.toDigits 10 count := by
    change (toString count).toList = _
    rw [Nat.toString_eq_repr, Nat.toList_repr]
  rw [digits] at member
  exact nomatch Nat.isDigit_of_mem_toDigits (by decide) (by decide) member

/-- An attempt whose requests leave a directory alone leaves it alone. -/
theorem Attempt.Asks.spares {α : Type} {result : α → Prop} {top : Location} {attempt : Attempt α}
    (asks : attempt.Asks (Request.Spares top) result) {world : World} (plain : world.IsPlain) :
    FileTree.Spares top world.tree (attempt.runIn world).2.tree :=
  (Action.Asks.run asks plain).2

/-- That something of a package was kept at a place in a cache. -/
inductive Keeps [ArchiveReader] (cache : Path) (package : PackageUri) : Path → World → World → Prop
  /-- The package was kept in its directory. -/
  | archive (archive : ByteArray) (world : World) :
      Keeps cache package (package.cachePath cache) world
        (((Storage.disk cache).keep package archive).runIn world).2
  /-- The metadata document was kept. -/
  | document (document : ByteArray) (world : World) :
      Keeps cache package (package.metadataCachePath cache) world
        (((Storage.disk cache).keepMetadata package document).runIn world).2

namespace PackageUri

variable {cache path : Path} {first second : PackageUri} {directory place : Location}
  {before after : World}

/-- What is kept at a place leaves alone the directory of a package that does not meet it. -/
theorem spares_of_keeps [ArchiveReader] (firstKept : first.IsKept) (secondKept : second.IsKept)
    (written : cache.IsAt directory) (there : (second.cachePath cache).IsAt place)
    (plain : before.IsPlain) (keeps : Keeps cache first path before after)
    (clear : ¬ path.LiesWithin (second.cachePath cache) ∧
      ¬ (second.cachePath cache).LiesWithin path) :
    FileTree.Spares place before.tree after.tree := by
  have aside (rest : Location) : Apart (directory ++ "tmp" :: rest) place := by
    have other : "tmp" ≠ "package-1" := by decide
    rw [there.unique (secondKept.cachePath_isAt written), Apart, List.prefix_append_right_inj,
      List.prefix_append_right_inj, List.cons_prefix_cons, List.cons_prefix_cons]
    exact ⟨fun start => other start.1, fun start => other start.1.symm⟩
  have meets {goal : Path} {names : Location} (goalThere : goal.IsAt names)
      (clear : ¬ goal.LiesWithin (second.cachePath cache) ∧
        ¬ (second.cachePath cache).LiesWithin goal) : Apart names place := by
    rw [goalThere.liesWithin_iff there, there.liesWithin_iff goalThere] at clear
    exact ⟨clear.2, clear.1⟩
  cases keeps with
  | archive archive =>
      have goal := firstKept.cachePath_isAt written
      have asks := Storage.asks_materialize written goal aside (meets goal clear) archive
      have kept : ((Storage.disk cache).keep first archive).Asks (Request.Spares place)
          fun _ => True := asks.bind fun _ _ => Attempt.asks_pure trivial
      exact kept.spares plain
  | document document =>
      have goal := firstKept.metadataCachePath_isAt written
      have kept : ((Storage.disk cache).keepMetadata first document).Asks (Request.Spares place)
          fun _ => True :=
        Storage.asks_storeMetadata written goal aside (meets goal clear) document
      exact kept.spares plain

/-- Two packages are located apart exactly if neither has the text of the document of the
other one and the first one does not go on from the second one with a slash.  Whatever is
kept of the first package leaves alone the directory of the second one if the two do not
meet, and does not make a directory that would be taken for the second one. -/
theorem located_apart_and_undisturbed [ArchiveReader] (firstKept : first.IsKept)
    (secondKept : second.IsKept) (different : first ≠ second) (cache : Path) :
    (LocatedApart cache first second ↔
      first.main ≠ second.main ++ ".json" ∧ second.main ≠ first.main ++ ".json" ∧
        ∀ rest, first.main ≠ second.main ++ "/" ++ rest) ∧
    ∀ (directory place : Location) (path : Path) (before after : World),
      cache.IsAt directory → (second.cachePath cache).IsAt place → before.IsPlain →
      Keeps cache first path before after →
      (¬ path.LiesWithin (second.cachePath cache) ∧
        ¬ (second.cachePath cache).LiesWithin path) →
      FileTree.Spares place before.tree after.tree ∧
        (before.tree.get? place ≠ some .directory →
          (((Storage.disk cache).package? second).runIn after).1 = .ok none) := by
  constructor
  · exact locatedApart_iff firstKept secondKept different cache
  · intro directory place path before after written there plain keeps clear
    have spares := spares_of_keeps firstKept secondKept written there plain keeps clear
    refine ⟨spares, ?_⟩
    intro absent
    apply Storage.package?_eq_none spares.isLinkFree there
    rw [spares.get?_eq place (List.prefix_refl _)]
    exact absent

/-! ## Places that meet -/

theorem preRelease_absent :
    "".toList = [] ∨ Version.isPart .preRelease "".toList = true :=
  .inl rfl

theorem build_absent : "".toList = [] ∨ Version.isPart .build "".toList = true :=
  .inl rfl

/-- The first release of a package. -/
def release (authority path : String) (authority_valid : isAuthority authority = true)
    (path_valid : isPath path = true) : PackageUri where
  scheme := .package
  authority
  path
  version :=
    { major := 1, minor := 0, patch := 0, preRelease := "", build := ""
      bounded := by decide
      preRelease_valid := preRelease_absent
      build_valid := build_absent }
  pin := none
  authority_valid
  path_valid

theorem isAuthority_localhost : isAuthority "localhost:0" = true := by
  decide

theorem isPath_birds : isPath "/birds" = true := by
  decide

/-- The birds. -/
def birds : PackageUri :=
  release "localhost:0" "/birds" isAuthority_localhost isPath_birds

/-- The fish. -/
def fish : PackageUri :=
  release "localhost:0" "/fish" isAuthority_localhost (by decide)

/-- A package whose path goes on from the birds. -/
def nest : PackageUri :=
  release "localhost:0" "/birds@1.0.0/nest" isAuthority_localhost (by decide)

/-- An archive without entries. -/
def emptyArchive : ByteArray :=
  ⟨#[0x50, 0x4B, 0x05, 0x06, 0, 0, 0, 0, 0, 0, 0, 0, 0, 0, 0, 0, 0, 0, 0, 0, 0, 0]⟩

/-- The birds and the fish are located apart, and keeping the birds makes no fish. -/
theorem birds_and_fish_located : LocatedApart ⟨"/cache"⟩ birds fish ∧
    (((Storage.disk ⟨"/cache"⟩).package? fish).runIn
      (((Storage.disk ⟨"/cache"⟩).keep birds emptyArchive).runIn World.empty).2).1 = .ok none := by
  have onward : ∀ rest, birds.main ≠ fish.main ++ "/" ++ rest := by
    intro rest same
    have begun := Text.fields_prefix_iff.mpr (.inr ⟨rest, same⟩)
    exact absurd begun (by decide +kernel)
  have birdsKept : birds.IsKept := by decide
  have fishKept : fish.IsKept := by decide
  rcases located_apart_and_undisturbed birdsKept fishKept (by decide +kernel) ⟨"/cache"⟩ with
    ⟨apart, undisturbed⟩
  constructor
  · exact apart.mpr ⟨by decide +kernel, by decide +kernel, onward⟩
  · have written : Path.IsAt ⟨"/cache"⟩ ["cache"] := by decide
    have there : (fish.cachePath ⟨"/cache"⟩).IsAt
        ["cache", "package-1", "localhost:0", "fish@1.0.0"] := by decide +kernel
    apply (undisturbed _ _ _ _ _ written there World.isPlain_empty (.archive emptyArchive _) _).2
    · exact nofun
    · decide +kernel

/-- Keeping the nest makes a directory at the place of the birds, which are then taken for
kept. -/
theorem keeping_nest_keeps_birds :
    parse "package://localhost:0/birds@1.0.0/nest@1.0.0" = .ok nest ∧
      parse "package://localhost:0/birds@1.0.0" = .ok birds ∧
      ¬ LocatedApart ⟨"/cache"⟩ nest birds ∧
      ((Storage.storedRoot? ⟨"/cache"⟩ birds).run World.empty).1 = none ∧
      ((Storage.storedRoot? ⟨"/cache"⟩ birds).run
        (((Storage.disk ⟨"/cache"⟩).keep nest emptyArchive).runIn World.empty).2).1 =
          some ⟨"/cache/package-1/localhost:0/birds@1.0.0"⟩ := by
  refine ⟨by decide +kernel, by decide +kernel, ?_, by decide +kernel, by decide +kernel⟩
  rintro ⟨-, -, outside⟩
  exact outside _ List.mem_cons_self (by decide +kernel)

/-- The authority `.` does not count as a directory. -/
example : ((release "." "/a/b" (by decide) (by decide)).cachePath ⟨"/cache"⟩).normalized =
    ((release "a" "/b" (by decide) (by decide)).cachePath ⟨"/cache"⟩).normalized := by
  decide +kernel

end PackageUri

end PackageResolution

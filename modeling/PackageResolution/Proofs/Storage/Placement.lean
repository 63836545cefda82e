import PackageResolution.Proofs.Action.Growth
import PackageResolution.Proofs.Package.Way
import PackageResolution.Proofs.Storage.Publishing

/-!
# Coming to a place in a cache

Something temporary is moved to its place in a cache directory that was empty when a resolver began
to use it.  However links lead to the directory, there are none in it, so what is moved is then
found at its place, and what lies beside it is found as before.
-/

namespace PackageResolution

open FileTree (Apart Arrives Approaches Grows Leads linkLimit)

namespace World

variable {start world later : World} {path cache : Path} {above top : Location}
  {name : String} {node : FileNode} {contents : ByteArray}

/-! ## What a path leads to -/

/-- That a path leads to a name in a directory, and what has the name. -/
structure Holds (world : World) (path : Path) (above : Location) (name : String)
    (node : FileNode) : Prop where
  approaches : world.tree.Approaches world.current path above name
  found : world.tree.get? (above ++ [name]) = some node

namespace Holds

theorem of_builds (holds : world.Holds path above name node) (builds : world.Builds later) :
    later.Holds path above name node :=
  ⟨builds.approaches holds.approaches, builds.grows.kept holds.found⟩

theorem findNode_eq (holds : world.Holds path above name node) :
    world.tree.findNode false world.current path = .ok (above ++ [name], node) := by
  rw [FileTree.findNode, holds.approaches.find_unfollowed, FileTree.lookAt, holds.found]

theorem find_eq (holds : world.Holds path above name node) (plain : ∀ target, node ≠ .link target) :
    world.tree.find true world.current path = .ok (.occupied (above ++ [name]) node) := by
  rw [holds.approaches.find_eq, FileTree.lookAt, holds.found]
  intro _ target found
  exact plain target (Option.some.inj (holds.found.symm.trans found))

theorem isDirectory_eq (holds : world.Holds path above name .directory) :
    world.tree.isDirectory world.current path = .ok true := by
  have found := holds.find_eq nofun
  rw [FileTree.isDirectory, FileTree.findNode, found]
  rfl

theorem read_eq (holds : world.Holds path above name (.file contents)) :
    world.tree.read world.current path = .ok contents := by
  have found := holds.find_eq nofun
  rw [FileTree.read, FileTree.findNode, found]

end Holds

/-! ## Temporary files and directories -/

/-- That a temporary path leads to something that was not there in an earlier world. -/
structure Adds (start : World) (path : Path) (above : Location) (name : String) (node : FileNode)
    (world : World) : Prop where
  isSound : start.IsSound
  builds : start.Builds world
  holds : world.Holds path above name node
  vacant : start.tree.get? (above ++ [name]) = none
  unmarked : '@' ∉ name.toList

namespace Adds

variable (adds : Adds start path above name node world)

include adds

theorem of_builds (builds : world.Builds later) : Adds start path above name node later where
  isSound := adds.isSound
  builds := adds.builds.trans builds
  holds := adds.holds.of_builds builds
  vacant := adds.vacant
  unmarked := adds.unmarked

theorem isSound_after : world.IsSound :=
  adds.builds.isSound adds.isSound

theorem isOpen : world.tree.IsOpen above :=
  adds.holds.approaches.isOpen adds.isSound_after.isOpen

theorem builds_erase :
    start.Builds { world with tree := world.tree.erase (above ++ [name]) } :=
  ⟨adds.builds.grows.erase adds.isSound.isClosed adds.vacant, adds.builds.current_eq,
    adds.builds.letters_eq⟩

theorem get?_ne_link (rest : Location) (target : String) :
    world.tree.get? (above ++ [name] ++ rest) ≠ some (.link target) := by
  intro found
  exact adds.isSound.isClosed.not_prefix adds.vacant
    (adds.builds.grows.links found ▸ Option.some_ne_none _) (List.prefix_append _ rest)

theorem run_removeTree : (Action.request (.removeTree path)).run world =
    (.ok (), { world with tree := world.tree.erase (above ++ [name]) }) := by
  have removed : world.tree.removeTree world.current path =
      .ok (world.tree.erase (above ++ [name])) := by
    rw [FileTree.removeTree, adds.holds.findNode_eq]
    rfl
  have asked : (Action.request (.removeTree path)).run world =
      world.change (·.removeTree · path) := rfl
  simp only [asked, change, removed]

end Adds

theorem Adds.isLasting : IsLasting (Adds start path above name node) :=
  ⟨Adds.isSound_after, Adds.of_builds⟩

theorem Adds.run_removeFile (adds : Adds start path above name (.file contents) world) :
    (Action.request (.removeFile path)).run world =
      (.ok (), { world with tree := world.tree.erase (above ++ [name]) }) := by
  have removed : world.tree.removeFile world.current path =
      .ok (world.tree.erase (above ++ [name])) := by
    rw [FileTree.removeFile, adds.holds.findNode_eq]
    rfl
  have asked : (Action.request (.removeFile path)).run world =
      world.change (·.removeFile · path) := rfl
  simp only [asked, change, removed]

/-- What is put at a place at which nothing was before. -/
theorem adds_insert (sound : start.IsSound) (builds : start.Builds world)
    (approaches : world.tree.Approaches world.current path above name)
    (vacant : start.tree.get? (above ++ [name]) = none) (unmarked : '@' ∉ name.toList)
    (other : world.tree.get? (above ++ [name]) ≠ some .directory)
    (plain : ∀ target, node ≠ .link target) (used : Nat) :
    Adds start path above name node { world with
      tree := world.tree.insert (above ++ [name]) node, lettersUsed := used } where
  isSound := sound
  builds := by
    refine ⟨builds.grows.insert plain vacant ?_ other, builds.current_eq, builds.letters_eq⟩
    rw [List.dropLast_concat]
    exact approaches.isOpen (builds.isSound sound).isOpen
  holds := by
    constructor
    · apply approaches.insert other
      intro target found
      exact nomatch vacant.symm.trans (builds.grows.links found)
    · rw [FileTree.get?_insert (by simp), if_pos rfl]
  vacant := vacant
  unmarked := unmarked

/-- A temporary file is written. -/
theorem Adds.adds_write (adds : Adds start path above name (.file contents) world)
    (others : ByteArray) :
    ∃ after, (Action.request (.write path others)).run world = (.ok (), after) ∧
      Adds start path above name (.file others) after := by
  have found := adds.holds.find_eq nofun
  have other : world.tree.get? (above ++ [name]) ≠ some .directory := by
    rw [adds.holds.found]
    exact nofun
  have plain (target : String) : FileNode.file others ≠ .link target := nofun
  have written : world.tree.write world.current path others =
      .ok (world.tree.insert (above ++ [name]) (.file others)) := by
    rw [FileTree.write, found]
  have asked : (Action.request (.write path others)).run world =
      world.change (·.write · path others) := rfl
  refine ⟨{ world with tree := world.tree.insert (above ++ [name]) (.file others) }, ?_, ?_⟩
  · simp only [asked, change, written]
  · exact adds_insert adds.isSound adds.builds adds.holds.approaches adds.vacant adds.unmarked other
      plain _

/-- A file that is written below a temporary directory comes to where nothing was before. -/
theorem Adds.adds_write_join (adds : Adds start path above name .directory world) {more : Path}
    (relative : more.isAbsolute = false) (onward : ".." ∉ FileTree.names more.text)
    (contents : ByteArray) :
    Adds start path above name .directory
      ((Action.request (.write (path.join more) contents)).run world).2 := by
  have sound := adds.isSound_after
  have plain : world.tree.IsPlainBelow (above ++ [name]) := fun rest target _ =>
    adds.get?_ne_link rest target
  have insert {destination : FileTree.Destination}
      (reached : world.tree.find true world.current (path.join more) = .ok destination)
      (free : destination.node? = none ∨ ∃ former, destination.node? = some (.file former)) :
      Adds start path above name .directory { world with
        tree := world.tree.insert destination.location (.file contents) } := by
    obtain ⟨held, inDirectory⟩ := FileTree.found_of_find sound.isOpen reached
    -- there are no links below the temporary directory, so the path does not lead out of it
    have below := adds.holds.approaches.prefix_location adds.holds.found plain relative onward
      reached
    rw [← held] at free
    have other : world.tree.get? destination.location ≠ some .directory := by
      rcases free with free | ⟨former, free⟩ <;> simp [free]
    have unlinked (target : String) :
        world.tree.get? destination.location ≠ some (.link target) := by
      rcases free with free | ⟨former, free⟩ <;> simp [free]
    have vacant : start.tree.get? destination.location = none := by
      by_contra present
      exact adds.isSound.isClosed.not_prefix adds.vacant present below
    have inside : destination.location ≠ [] := by
      intro nothing
      rw [nothing] at other
      exact other (FileTree.get?_nil _)
    refine ⟨adds.isSound, ⟨adds.builds.grows.insert ?_ vacant inDirectory other,
      adds.builds.current_eq, adds.builds.letters_eq⟩,
      ⟨adds.holds.approaches.insert other unlinked _, ?_⟩, adds.vacant, adds.unmarked⟩
    · exact nofun
    · rw [FileTree.get?_insert inside, if_neg]
      · exact adds.holds.found
      · intro same
        exact other (same ▸ adds.holds.found)
  have asked : (Action.request (.write (path.join more) contents)).run world =
      world.change (·.write · (path.join more) contents) := rfl
  rw [asked, change]
  cases done : world.tree.write world.current (path.join more) contents with
  | error refusal => exact adds
  | ok tree =>
      obtain ⟨destination, reached, free, rfl⟩ := FileTree.exists_of_write done
      exact insert reached free

/-- What was created under a fresh name. -/
theorem adds_of_isFresh (sound : start.IsSound) (builds : start.Builds world)
    (fresh : world.IsFresh path above name) (plain : ∀ target, node ≠ .link target) (used : Nat) :
    Adds start path above name node { world with
      tree := world.tree.insert (above ++ [name]) node, lettersUsed := used } := by
  refine adds_insert sound builds fresh.approaches ?_ fresh.unmarked ?_ plain used
  · by_contra present
    obtain ⟨node, found⟩ := Option.ne_none_iff_exists'.mp present
    exact nomatch fresh.vacant.symm.trans (builds.grows.kept found)
  · rw [fresh.vacant]
    exact nofun

/-! ## Empty caches -/

/-- That a cache directory is there and nothing is in it. -/
structure HasEmptyCache (world : World) (cache : Path) (top : Location) : Prop where
  isSound : world.IsSound
  isAccepted : cache.IsAccepted
  exists_arrives : ∃ left, Arrives world.tree linkLimit (FileTree.origin world.current cache)
    (FileTree.names cache.text) left top
  unused : ∀ rest, rest ≠ [] → world.tree.get? (top ++ rest) = none

theorem IsSound.exists_hasEmptyCache (sound : world.IsSound)
    (empty : world.tree.list world.current cache = .ok []) :
    ∃ top, world.HasEmptyCache cache top := by
  unfold FileTree.list at empty
  split at empty
  · rename_i top searched
    have found := FileTree.find_of_findNode searched
    obtain ⟨left, goal, flag, arrives, -, last⟩ :=
      (FileTree.leads_of_find found).divides (List.append_nil _).symm (.inr ⟨rfl, rfl⟩)
    cases last
    have children : world.tree.children top = [] := List.map_eq_nil_iff.mp (Except.ok.inj empty)
    exact ⟨top, sound, FileTree.isAccepted_of_find found, ⟨left, arrives⟩,
      fun rest => sound.isClosed.get?_of_children children⟩
  · exact nomatch empty
  · exact nomatch empty

namespace HasEmptyCache

variable (has : start.HasEmptyCache cache top) (builds : start.Builds world)

include has builds

theorem isPlainBelow : world.tree.IsPlainBelow top :=
  fun rest _ filled found => nomatch (has.unused rest filled).symm.trans (builds.grows.links found)

theorem isDirectory_eq : world.tree.isDirectory world.current cache = .ok true := by
  obtain ⟨left, arrives⟩ := has.exists_arrives
  have found : world.tree.find true world.current cache = .ok (.occupied top .directory) := by
    rw [FileTree.find_eq_walk has.isAccepted, builds.current_eq]
    exact (builds.grows.arrives arrives).walk
  rw [FileTree.isDirectory, FileTree.findNode, found]
  rfl

/-- A way that goes on from the cache leads to a place in it. -/
theorem prefix_above {way : List String} (descends : path.Descends cache way name)
    (inside : StaysInside way)
    (approaches : world.tree.Approaches world.current path above name) : top <+: above := by
  obtain ⟨front, left, split, arrives⟩ := approaches.exists_arrives
  obtain ⟨between, first⟩ := has.exists_arrives
  have plain := has.isPlainBelow builds
  -- the way of the path is that of the cache, up to `.` between the slashes, and then `way`
  have fronts : front.filter (· ≠ ".") =
      (FileTree.names cache.text).filter (· ≠ ".") ++ way := by
    have whole := descends.names_eq
    rw [split, List.filter_append,
      List.filter_cons_of_pos (by simpa using approaches.isEntry.ne_single)] at whole
    exact (List.append_inj' whole rfl).1
  have kept : way.filter (· ≠ ".") = way := by
    refine List.filter_eq_self.mpr fun name member => ?_
    have among : name ∈ front.filter (· ≠ ".") := fronts ▸ List.mem_append_right _ member
    exact (List.mem_filter.mp among).2
  have whole : Arrives world.tree linkLimit (FileTree.origin world.current path)
      (FileTree.names cache.text ++ way) left above := by
    apply arrives.of_filter_eq
    rw [fronts, List.filter_append, kept]
  have origin : FileTree.origin world.current path = FileTree.origin start.current cache := by
    rw [FileTree.origin, FileTree.origin, descends.isAbsolute_eq, builds.current_eq]
  rw [origin] at whole
  obtain ⟨budget, closed, leads⟩ := (builds.grows.arrives first).exists_leads whole
  exact leads.prefix_of_staysInside plain inside

/-! ## Moving to a place in the cache -/

variable {package : PackageUri} {temporary : Path} {here goal : Location} {suffix : String}
  {way : List String} {tree : FileTree}

/-- What is moved from a temporary path to a place in the cache comes to a name in a directory
there, at which nothing was that could not be replaced. -/
theorem exists_of_rename (descends : path.Descends cache way (package.keptName suffix))
    (inside : StaysInside way) (plain : '/' ∉ suffix.toList)
    (holds : world.Holds temporary here name node) (unmarked : '@' ∉ name.toList)
    (done : world.tree.rename world.current temporary path = .ok tree) :
    ∃ goal, world.tree.Approaches world.current path goal (package.keptName suffix) ∧
      top <+: goal ∧ tree = world.tree.move (here ++ [name]) (goal ++ [package.keptName suffix]) ∧
      Apart (here ++ [name]) (goal ++ [package.keptName suffix]) ∧
      (∀ rest, rest ≠ [] →
        world.tree.get? (goal ++ [package.keptName suffix] ++ rest) = none) ∧
      ∀ other, world.tree.get? (goal ++ [package.keptName suffix]) = some other →
        other.isDirectory = node.isDirectory := by
  have sound := builds.isSound has.isSound
  obtain ⟨place, source, destination, found, reached, outcome⟩ :=
    FileTree.exists_of_rename sound.isClosed sound.isOpen done
  rw [holds.findNode_eq] at found
  obtain ⟨rfl, rfl⟩ := Prod.mk.inj (Except.ok.inj found)
  obtain ⟨base, rfl⟩ := descends.exists_join
  obtain ⟨goal, approaches⟩ := FileTree.exists_approaches (package.isName_keptName suffix)
    (package.slash_not_mem_keptName plain) reached
  rw [approaches.find_unfollowed] at reached
  obtain rfl := Except.ok.inj reached
  rw [FileTree.location_lookAt, FileTree.node?_lookAt] at outcome
  rcases outcome with ⟨same, -⟩ | ⟨moved, apart, free, fits⟩
  · have names := (List.append_inj' same rfl).2
    rw [List.cons.injEq] at names
    exact absurd (names.1 ▸ package.at_mem_keptName suffix) unmarked
  · exact ⟨goal, approaches, has.prefix_above builds descends inside approaches, moved, apart,
      free, fits⟩

end HasEmptyCache

section

variable {package : PackageUri} {temporary : Path} {here : Location} {tree : FileTree}
  {document : ByteArray}

/-- A metadata document that is moved to its place is there. -/
theorem HasEmptyCache.exists_holds_document (has : start.HasEmptyCache cache top)
    (adds : Adds start temporary here name (.file document) world)
    (done : world.tree.rename world.current temporary (package.metadataCachePath cache) =
      .ok tree) :
    start.Builds { world with tree } ∧
      ∃ goal, Holds { world with tree } (package.metadataCachePath cache) goal
        (package.keptName ".json") (.file document) := by
  obtain ⟨way, inside, -, descends⟩ := package.exists_descends cache has.isAccepted.filled
  have sound := adds.builds.isSound has.isSound
  obtain ⟨goal, approaches, below, rfl, apart, free, fits⟩ :=
    has.exists_of_rename adds.builds descends inside (by decide) adds.holds adds.unmarked done
  have strictly (rest : Location) : start.tree.get? (goal ++ [package.keptName ".json"] ++ rest) =
      none := by
    obtain ⟨between, rfl⟩ := below
    rw [List.append_assoc, List.append_assoc]
    exact has.unused _ (by simp)
  constructor
  · refine ⟨?_, adds.builds.current_eq, adds.builds.letters_eq⟩
    apply adds.builds.grows.move has.isSound.isClosed adds.vacant (fun rest _ => strictly rest) _
      adds.get?_ne_link apart
    · rw [List.dropLast_concat]
      exact approaches.isOpen sound.isOpen
    · intro node found
      have vacant := strictly []
      rw [List.append_nil] at vacant
      exact nomatch vacant.symm.trans found
  · have replaced (other : FileNode)
        (found : world.tree.get? (goal ++ [package.keptName ".json"]) = some other) :
        ∃ contents, other = .file contents := by
      cases other with
      | file contents => exact ⟨contents, rfl⟩
      | directory => exact nomatch fits _ found
      | link target =>
          exact absurd found ((has.isPlainBelow adds.builds).get?_concat_ne below target)
    have passed {place : Location} {node : FileNode} (found : world.tree.get? place = some node)
        (plain : ∀ contents, node ≠ .file contents) :=
      sound.isClosed.get?_move_file adds.holds.found replaced found plain
    have moved : (world.tree.move (here ++ [name]) (goal ++ [package.keptName ".json"])).get?
        (goal ++ [package.keptName ".json"] ++ []) = world.tree.get? (here ++ [name] ++ []) :=
      FileTree.get?_move_append (by simp) (by simp)
    rw [List.append_nil, List.append_nil, adds.holds.found] at moved
    exact ⟨goal, approaches.mono (fun _ found => passed found nofun)
      fun _ _ found => passed found nofun, moved⟩

/-- A metadata document that is read from its place is there. -/
theorem HasEmptyCache.exists_holds_of_read (has : start.HasEmptyCache cache top)
    (builds : start.Builds world)
    (found : world.tree.read world.current (package.metadataCachePath cache) = .ok document) :
    ∃ goal, world.Holds (package.metadataCachePath cache) goal (package.keptName ".json")
      (.file document) := by
  obtain ⟨way, inside, -, descends⟩ := package.exists_descends cache has.isAccepted.filled
  unfold FileTree.read at found
  split at found
  · rename_i place contents searched
    obtain rfl := Except.ok.inj found
    have reached := FileTree.find_of_findNode searched
    obtain ⟨base, joined⟩ := descends.exists_join
    obtain ⟨goal, approaches⟩ := FileTree.exists_approaches (package.isName_keptName ".json")
      (package.slash_not_mem_keptName (by decide)) (joined ▸ reached)
    rw [← joined] at approaches
    have below := has.prefix_above builds descends inside approaches
    have looked := approaches.find_eq fun (_ : true = true) target =>
      (has.isPlainBelow builds).get?_concat_ne below target
    have there := Except.ok.inj (reached.symm.trans looked)
    have same := congrArg FileTree.Destination.node? there
    rw [FileTree.node?_lookAt] at same
    exact ⟨goal, approaches, same.symm⟩
  · exact nomatch found
  · exact nomatch found

variable {goal : Location} {staging : Path} {first : World}

/-- The directory of a package is beside its metadata document. -/
theorem Holds.approaches_cachePath (filled : cache.text ≠ "")
    (document : world.Holds (package.metadataCachePath cache) goal (package.keptName ".json") node)
    (accepted : (package.cachePath cache).IsAccepted) :
    world.tree.Approaches world.current (package.cachePath cache) goal (package.keptName "") := by
  obtain ⟨way, -, descends, beside⟩ := package.exists_descends cache filled
  have plain : '/' ∉ "".toList := by decide
  have isName := package.isName_keptName ""
  have slashless := package.slash_not_mem_keptName plain
  obtain ⟨base, joined, front⟩ := descends.exists_base isName slashless
  obtain ⟨other, otherJoined, otherFront⟩ := beside.exists_base (package.isName_keptName ".json")
    (package.slash_not_mem_keptName (by decide))
  have entry : FileTree.IsEntry (package.keptName "") := by
    refine ⟨isName.2.1, isName.2.2, le_trans ?_ document.approaches.isEntry.fits⟩
    simp [PackageUri.keptName]
  have others : FileTree.names (package.metadataCachePath cache).text =
      FileTree.names other.text ++ [package.keptName ".json"] := by
    rw [otherJoined, Path.names_join_name (package.isName_keptName ".json")
      (package.slash_not_mem_keptName (by decide))]
  refine document.approaches.alike accepted entry ?_
    (descends.isAbsolute_eq.trans beside.isAbsolute_eq.symm)
    (joined ▸ Path.names_join_name isName slashless) ?_
  · rw [joined]
    exact Path.endsWith_join_name isName slashless
  · rw [others, List.dropLast_concat, front, otherFront]

/-- A package that is moved to its place is there, and nothing is where it was. -/
theorem HasEmptyCache.holds_package (has : start.HasEmptyCache cache top)
    (builds : start.Builds first)
    (document : first.Holds (package.metadataCachePath cache) goal (package.keptName ".json") node)
    (adds : Adds first staging here name .directory world)
    (done : world.tree.rename world.current staging (package.cachePath cache) = .ok tree) :
    first.Builds { world with tree } ∧
      Holds { world with tree } (package.cachePath cache) goal (package.keptName "") .directory ∧
      tree.get? (here ++ [name]) = none := by
  obtain ⟨way, inside, descends, -⟩ := package.exists_descends cache has.isAccepted.filled
  have sound := adds.isSound_after
  obtain ⟨other, approaches, -, rfl, apart, free, fits⟩ := has.exists_of_rename
    (builds.trans adds.builds) descends inside (by decide) adds.holds adds.unmarked done
  have beside := document.approaches_cachePath has.isAccepted.filled approaches.isAccepted
  obtain rfl : goal = other :=
    (List.append_inj' ((adds.builds.approaches beside).unique approaches) rfl).1
  have moved : first.Builds { world with
      tree := world.tree.move (here ++ [name]) (goal ++ [package.keptName ""]) } := by
    refine ⟨?_, adds.builds.current_eq, adds.builds.letters_eq⟩
    apply adds.builds.grows.move adds.isSound.isClosed adds.vacant _ _ adds.get?_ne_link apart
    · rw [List.dropLast_concat]
      exact approaches.isOpen sound.isOpen
    · intro rest filled
      by_contra present
      obtain ⟨node, found⟩ := Option.ne_none_iff_exists'.mp present
      exact nomatch (free rest filled).symm.trans (adds.builds.grows.kept found)
    · intro node found
      have directory := fits node (adds.builds.grows.kept found)
      cases node with
      | directory => exact adds.holds.found
      | file contents => exact nomatch directory
      | link target => exact nomatch directory
  have arrived : (world.tree.move (here ++ [name]) (goal ++ [package.keptName ""])).get?
      (goal ++ [package.keptName ""] ++ []) = world.tree.get? (here ++ [name] ++ []) :=
    FileTree.get?_move_append (by simp) (by simp)
  rw [List.append_nil, List.append_nil, adds.holds.found] at arrived
  exact ⟨moved, ⟨moved.approaches beside, arrived⟩,
    FileTree.get?_move_source (by simp) apart (List.prefix_refl _)⟩

/-- A package that is found in the cache is beside its metadata document. -/
theorem HasEmptyCache.holds_of_isDirectory (has : start.HasEmptyCache cache top)
    (builds : start.Builds world)
    (document : world.Holds (package.metadataCachePath cache) goal (package.keptName ".json") node)
    (found : world.tree.isDirectory world.current (package.cachePath cache) = .ok true) :
    world.Holds (package.cachePath cache) goal (package.keptName "") .directory := by
  obtain ⟨way, inside, -, descends⟩ := package.exists_descends cache has.isAccepted.filled
  have below := has.prefix_above builds descends inside document.approaches
  obtain ⟨⟨place, other⟩, searched, directory⟩ := Result.map_eq_ok_iff.mp found
  have reached := FileTree.find_of_findNode searched
  have approaches := document.approaches_cachePath has.isAccepted.filled
    (FileTree.isAccepted_of_find reached)
  have looked := approaches.find_eq fun (_ : true = true) target =>
    (has.isPlainBelow builds).get?_concat_ne below target
  have there := Except.ok.inj (reached.symm.trans looked)
  have same := congrArg FileTree.Destination.node? there
  rw [FileTree.node?_lookAt] at same
  cases other with
  | directory => exact ⟨approaches, same.symm⟩
  | file contents => exact nomatch directory
  | link target => exact nomatch directory

end

end World

end PackageResolution

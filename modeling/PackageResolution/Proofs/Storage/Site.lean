import PackageResolution.Proofs.Action.Furnishing
import PackageResolution.Proofs.Storage.Placement

/-!
# The site of a package in a cache

Where no links are below a cache directory, a package has its directory at the place that the names
of its path say, and a staging directory is at a name in the area for them.  Directories that are
put up on the way are a scaffold: they are above the place of the package, or the staging area.
-/

namespace PackageResolution

open FileTree (FurnishesAt IsAlong)

/-! ## Places of packages -/

namespace PackageUri

variable (package : PackageUri)

/-- The names that lead from a cache directory to the directory of a package.  A `.` leads
nowhere. -/
def keptPlace : Location :=
  "package-1" :: Path.way ⟨package.main⟩

theorem keptPlace_eq : package.keptPlace = package.keptPlace.dropLast ++ [package.keptName ""] := by
  obtain ⟨way, -, steps⟩ := package.exists_way
  have whole := steps "" (by decide)
  rw [String.append_empty, ← Path.way_eq_map] at whole
  have ends : package.keptPlace = "package-1" :: way ++ [package.keptName ""] := by
    rw [keptPlace, whole, List.cons_append]
  rw [ends, List.dropLast_concat]

theorem keptPlace_ne_nil : package.keptPlace ≠ [] :=
  List.cons_ne_nil _ _

/-- The path of a package goes on from the cache directory. -/
theorem continues_cachePath {cache : Path} (filled : cache.text ≠ "") :
    (package.cachePath cache).Continues cache package.keptPlace := by
  have components := package.components_cachePath cache
  rw [Path.packageArea, Path.components_join (by decide) filled, List.append_assoc] at components
  obtain ⟨rooted, steps⟩ := Path.of_components_eq_append components (by
    intro component member
    rcases List.mem_append.mp member with among | among
    · exact Path.isMark_of_mem_steps among
    · exact Path.isMark_of_mem_steps among)
  refine ⟨rooted, ?_⟩
  rw [Path.way_eq_map, steps, List.map_append, ← Path.way_eq_map, List.map_append,
    ← Path.way_eq_map, ← Path.way_eq_map]
  rfl

/-- Only an authority can lead back. -/
theorem double_not_mem_keptPlace (hosted : package.authority ≠ "..") :
    ".." ∉ package.keptPlace := by
  obtain ⟨start, last, segments, named, pieces⟩ := package.exists_fields
  rw [keptPlace, List.mem_cons, not_or]
  refine ⟨by decide, fun member => ?_⟩
  have among := List.mem_of_mem_filter (List.mem_of_mem_filter member)
  rw [main_eq, pieces _ package.slash_not_mem_version, List.mem_append, List.mem_cons,
    List.mem_singleton] at among
  rcases among with (same | between) | same
  · exact hosted same.symm
  · have whole := package.path_segments
    rw [segments, List.all_append, Bool.and_eq_true] at whole
    exact nomatch List.all_eq_true.mp whole.1 ".." between
  · have isName := package.isName_versioned last ""
    rw [String.append_empty, ← same] at isName
    exact isName.2.2 rfl

end PackageUri

/-! ## Scaffolds -/

/-- The places at which directories may be left when a package comes to a cache directory: those
above its place, and the staging area. -/
def IsScaffold (top : Location) (package : PackageUri) (place : Location) : Prop :=
  IsAlong top package.keptPlace.dropLast place ∨ place = top ++ ["tmp"]

/-- That a place is a directory with something in it. -/
def FileTree.IsFilled (tree : FileTree) (place : Location) : Prop :=
  ∃ rest, rest ≠ [] ∧ tree.get? (place ++ rest) ≠ none

variable {top place rest : Location} {package : PackageUri}

theorem isAlong_tmp_iff : IsAlong top ["tmp"] place ↔ place = top ++ ["tmp"] := by
  constructor
  · rintro ⟨more, filled, among, rfl⟩
    cases more with
    | nil => exact absurd rfl filled
    | cons name others =>
        obtain ⟨rfl, nothing⟩ := List.cons_prefix_cons.mp among
        rw [List.prefix_nil.mp nothing]
  · rintro rfl
    exact ⟨["tmp"], by simp, List.prefix_refl _, rfl⟩

/-- No scaffold is at or below the place of the package. -/
theorem not_isScaffold_append : ¬ IsScaffold top package (top ++ package.keptPlace ++ rest) := by
  rintro (⟨more, -, among, same⟩ | same)
  · rw [List.append_assoc] at same
    have long := (List.append_cancel_left same ▸ among).length_le
    have filled := List.length_pos_iff.mpr package.keptPlace_ne_nil
    rw [List.length_append, List.length_dropLast] at long
    omega
  · rw [List.append_assoc] at same
    have names := List.append_cancel_left same
    rw [PackageUri.keptPlace, List.cons_append, List.cons.injEq] at names
    exact absurd names.1 (by decide)

/-- Nothing at or below the place of the package is at or below a name in the staging area. -/
theorem staged_not_prefix_append {name : String} :
    ¬ top ++ ["tmp"] ++ [name] <+: top ++ package.keptPlace ++ rest := by
  rw [List.append_assoc, List.append_assoc, List.prefix_append_right_inj, PackageUri.keptPlace,
    List.cons_append, List.cons_append, List.cons_prefix_cons]
  exact fun start => absurd start.1 (by decide)

theorem staged_not_prefix {name : String} :
    ¬ top ++ ["tmp"] ++ [name] <+: top ++ package.keptPlace := by
  rw [← List.append_nil (top ++ package.keptPlace)]
  exact staged_not_prefix_append

/-- Nothing in the staging area is at or below the place of the package. -/
theorem kept_not_prefix {name : String} :
    ¬ top ++ package.keptPlace <+: top ++ ["tmp"] ++ [name] ++ rest := by
  rw [List.append_assoc, List.append_assoc, List.prefix_append_right_inj, PackageUri.keptPlace,
    List.singleton_append, List.cons_prefix_cons]
  exact fun start => absurd start.1 (by decide)

/-- No scaffold is at or below a name in the staging area. -/
theorem not_isScaffold_staged {name : String} :
    ¬ IsScaffold top package (top ++ ["tmp"] ++ [name] ++ rest) := by
  rintro (⟨more, -, among, same⟩ | same)
  · have whole := (List.prefix_append_right_inj top).mpr (among.trans (List.dropLast_prefix _))
    rw [← same] at whole
    exact staged_not_prefix ((List.prefix_append _ _).trans whole)
  · rw [List.append_assoc] at same
    exact absurd (List.append_right_eq_self.mp same) (by simp)

/-! ## Caches without links -/

namespace World

/-- That the names on the way to the working directory are those of directories. -/
def IsPlaced (world : World) : Prop :=
  ∀ name ∈ world.current, Path.IsName name ∧ '/' ∉ name.toList ∧
    name.utf8ByteSize ≤ FileTree.nameLimit

/-- That a path leads to a cache directory below which there are no links. -/
structure HasPlainCache (world : World) (cache : Path) (top : Location) : Prop where
  isSound : world.IsSound
  isPlaced : world.IsPlaced
  findNode_eq : world.tree.findNode true world.current cache = .ok (top, .directory)
  isPlainBelow : world.tree.IsPlainBelow top

variable {world : World} {cache : Path}

theorem IsPlaced.isEntry (placed : world.IsPlaced) {name : String} (member : name ∈ world.current) :
    FileTree.IsEntry name := by
  obtain ⟨isName, -, fits⟩ := placed name member
  exact ⟨isName.2.1, isName.2.2, fits⟩

theorem IsPlaced.names_pathOf (placed : world.IsPlaced) :
    FileTree.names (FileTree.pathOf world.current).text = world.current := by
  rw [FileTree.pathOf, FileTree.names_slash_append,
    FileTree.names_intercalate fun name member => (placed name member).2.1]
  apply List.filter_eq_self.mpr
  intro name member
  simpa using (placed name member).1.1

theorem isAbsolute_pathOf (place : Location) : (FileTree.pathOf place).isAbsolute = true := by
  simp [FileTree.pathOf, Path.isAbsolute, Text.beginsWith]

namespace HasPlainCache

variable (has : world.HasPlainCache cache top)

include has

theorem isAccepted : cache.IsAccepted :=
  FileTree.isAccepted_of_find (FileTree.find_of_findNode has.findNode_eq)

theorem enters : world.Enters cache top where
  exists_arrives := by
    have found := FileTree.find_of_findNode has.findNode_eq
    obtain ⟨left, goal, flag, arrives, -, last⟩ :=
      (FileTree.leads_of_find found).divides (List.append_nil _).symm (.inr ⟨rfl, rfl⟩)
    cases last
    exact ⟨left, arrives⟩
  isPlainBelow := has.isPlainBelow

/-- The staging area is found from the root as well. -/
theorem exists_continues : ∃ base : Path, world.Enters base top ∧
    (world.absolute (Storage.stagingArea cache)).text ≠ "" ∧
    (world.absolute (Storage.stagingArea cache)).Continues base ["tmp"] := by
  have filled := has.isAccepted.filled
  have relative : Path.isAbsolute ⟨"tmp"⟩ = false := by decide
  have rooted : (Storage.stagingArea cache).isAbsolute = cache.isAbsolute :=
    Path.isAbsolute_join relative filled
  have way : (Storage.stagingArea cache).way = cache.way ++ ["tmp"] := by
    have area : Path.way ⟨"tmp"⟩ = ["tmp"] := Path.way_of_isName (by decide) (by decide)
    rw [Storage.stagingArea, Path.way_join relative, area]
  have text : (Storage.stagingArea cache).text ≠ "" := Path.text_join_ne_empty filled relative
  by_cases absolute : cache.isAbsolute = true
  · rw [World.absolute, if_pos (rooted.trans absolute)]
    exact ⟨cache, has.enters, text, rooted, way⟩
  · rw [Bool.not_eq_true] at absolute
    have start : (FileTree.pathOf world.current).text ≠ "" := by simp [FileTree.pathOf]
    rw [World.absolute, if_neg (by simp [rooted, absolute])]
    refine ⟨(FileTree.pathOf world.current).join cache, ?_,
      Path.text_join_ne_empty start (rooted.trans absolute), ?_, ?_⟩
    · refine ⟨?_, has.isPlainBelow⟩
      obtain ⟨left, arrives⟩ := has.enters.exists_arrives
      refine ⟨left, ?_⟩
      rw [Path.names_join absolute, has.isPlaced.names_pathOf, FileTree.origin,
        Path.isAbsolute_join absolute start, if_pos (isAbsolute_pathOf _)]
      rw [FileTree.origin, absolute, if_neg Bool.false_ne_true] at arrives
      have opened : world.tree.IsOpen ([] ++ world.current) := has.isSound.isOpen
      exact (FileTree.arrives_of_isOpen (fun name => has.isPlaced.isEntry) opened).append arrives
    · rw [Path.isAbsolute_join (rooted.trans absolute) start, Path.isAbsolute_join absolute start]
    · rw [Path.way_join (rooted.trans absolute), Path.way_join absolute, way, List.append_assoc]

/-- A fresh staging directory is in the staging area. -/
theorem above_eq {later : World} {above : Location} {name : String} (builds : world.Builds later)
    (fresh : later.IsFresh ((later.absolute (Storage.stagingArea cache)).join ⟨name⟩) above name) :
    above = top ++ ["tmp"] := by
  obtain ⟨base, enters, text, continues⟩ := has.exists_continues
  have same : later.absolute (Storage.stagingArea cache) =
      world.absolute (Storage.stagingArea cache) := by
    rw [World.absolute, World.absolute, builds.current_eq]
  rw [same] at fresh
  have further := continues.join text (Path.isAbsolute_of_not_mem fresh.slashless)
  rw [Path.way_of_isName fresh.isName fresh.slashless] at further
  have onward : ".." ∉ ["tmp"] ++ [name] := by simpa using fresh.isName.2.2.symm
  have located := (enters.of_builds builds).location_eq further (by simp) onward
    fresh.approaches.find_unfollowed
  rw [FileTree.location_lookAt, ← List.append_assoc] at located
  exact (List.append_inj' located rfl).1

end HasPlainCache

end World

end PackageResolution

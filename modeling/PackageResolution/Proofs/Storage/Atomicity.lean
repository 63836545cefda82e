import PackageResolution.Archive.Zip
import PackageResolution.Proofs.Storage.Interchange
import PackageResolution.Proofs.Storage.Site
import PackageResolution.Proofs.Storage.Staging

/-!
# All or nothing

A package comes to its place in a cache as a whole or not at all.  Where materializing it fails, the
files are as before, up to the scaffold.  Where it succeeds, the directory of the package is as it
was if something was in it, and holds what the archive unpacks to otherwise; everything outside of
it is as before, up to the scaffold.
-/

namespace PackageResolution

open Attempt (Ensures)
open FileTree (Apart FurnishesAt IsAlong Passes)

namespace World

variable {new : Location → Prop} {first start world : World} {staging : Path}
  {above root : Location} {name : String} {contents : Contents} {unpacked : Option Contents}

/-- That contents came to a directory in which nothing was, and that all other places are as before,
up to new directories at places of one kind. -/
structure Publishes (new : Location → Prop) (start : World) (root : Location) (contents : Contents)
    (world : World) : Prop where
  builds : start.Builds world
  unfilled : ¬ start.tree.IsFilled root
  isDirectory : world.tree.get? root = some .directory
  elsewhere : ∀ place, ¬ root <+: place → FurnishesAt new start.tree world.tree place
  inside : ∀ rest, world.tree.get? (root ++ rest) = contents rest

/-- How a package comes to its place: what was unpacked is there, or something was there before and
still is. -/
inductive Settles (new : Location → Prop) (start : World) (root : Location)
    (unpacked : Option Contents) (world : World) : Prop
  | published (contents : Contents) (whole : unpacked = some contents)
      (publishes : Publishes new start root contents world)
  | kept (filled : start.tree.IsFilled root) (furnishes : start.Furnishes new world)

/-- How publishing from a staging directory ends: the contents are in their place and the staging
directory is gone, or something was there and the staging directory is still there. -/
inductive Lands (new : Location → Prop) (start : World) (staging : Path) (above : Location)
    (name : String) (root : Location) (unpacked : Option Contents) (world : World) : Prop
  | published (contents : Contents) (whole : unpacked = some contents)
      (publishes : Publishes new start root contents world)
      (gone : world.tree.get? (above ++ [name]) = none)
  | kept (filled : start.tree.IsFilled root)
      (staged : StagesSome new start staging above name world)

/-- What is at a place at which no new directory may come was there if it is there later. -/
theorem Furnishes.isFilled_iff {later : World} (furnishes : first.Furnishes new later)
    (aside : ∀ rest, ¬ new (root ++ rest)) :
    later.tree.IsFilled root ↔ first.tree.IsFilled root := by
  refine exists_congr fun rest => and_congr_right fun _ => ?_
  rw [(furnishes.furnishes _).get?_eq (aside rest)]

/-- New directories that came before count as well. -/
theorem Settles.of_furnishes (settles : Settles new start root unpacked world)
    (furnishes : first.Furnishes new start) (aside : ∀ rest, ¬ new (root ++ rest)) :
    Settles new first root unpacked world := by
  cases settles with
  | published contents whole publishes =>
      apply Settles.published contents whole
      constructor
      · exact furnishes.toBuilds.trans publishes.builds
      · rw [← furnishes.isFilled_iff aside]
        exact publishes.unfilled
      · exact publishes.isDirectory
      · intro place outside
        exact (furnishes.furnishes place).trans (publishes.elsewhere place outside)
      · exact publishes.inside
  | kept filled later =>
      exact .kept ((furnishes.isFilled_iff aside).mp filled) (furnishes.trans later)

theorem Settles.builds (settles : Settles new start root unpacked world) : start.Builds world := by
  cases settles with
  | published contents whole publishes => exact publishes.builds
  | kept filled furnishes => exact furnishes.toBuilds

/-- Either way there is a directory. -/
theorem Settles.get?_eq (settles : Settles new start root unpacked world) (sound : start.IsSound) :
    world.tree.get? root = some .directory := by
  cases settles with
  | published contents whole publishes => exact publishes.isDirectory
  | kept filled furnishes =>
      obtain ⟨rest, onward, present⟩ := filled
      exact furnishes.grows.kept (sound.isClosed.get?_above onward present)

theorem Settles.furnishesAt (settles : Settles new start root unpacked world) {place : Location}
    (outside : ¬ root <+: place) : FurnishesAt new start.tree world.tree place := by
  cases settles with
  | published contents whole publishes => exact publishes.elsewhere place outside
  | kept filled furnishes => exact furnishes.furnishes place

/-- A staging directory is empty at first. -/
theorem stages_of_isFresh (sound : start.IsSound) (fresh : start.IsFresh staging above name)
    (used : Nat) : Stages new start staging above name .empty { start with
      tree := start.tree.insert (above ++ [name]) .directory, lettersUsed := used } where
  toAdds := by
    apply adds_of_isFresh sound (.refl sound) fresh
    exact nofun
  elsewhere place outside := by
    left
    rw [FileTree.get?_insert (by simp), if_neg]
    rintro rfl
    exact outside (List.prefix_refl _)
  inside rest := by
    rw [FileTree.get?_insert (by simp), Contents.empty]
    by_cases filled : rest = []
    · rw [if_pos filled, filled, List.append_nil, if_pos rfl]
    · rw [if_neg filled, if_neg (by simpa using filled)]
      apply sound.isClosed.get?_below _ filled
      rw [fresh.vacant]
      exact nofun

namespace Stages

variable (stages : Stages new start staging above name contents world)

include stages

/-- Nothing was at the place of the staging directory. -/
theorem get?_start {place : Location} (below : above ++ [name] <+: place) :
    start.tree.get? place = none := by
  by_contra present
  exact stages.isSound.isClosed.not_prefix stages.vacant present below

/-- Where nothing is now, nothing was before. -/
theorem get?_start_of_free {place : Location} (free : world.tree.get? place = none) :
    start.tree.get? place = none := by
  by_contra present
  obtain ⟨node, found⟩ := Option.ne_none_iff_exists'.mp present
  exact nomatch free.symm.trans (stages.builds.grows.kept found)

theorem get?_move_root (apart : Apart (above ++ [name]) root) (rest : Location) :
    (world.tree.move (above ++ [name]) root).get? (root ++ rest) = contents rest := by
  have goal : root ≠ [] := by
    rintro rfl
    exact apart.2 List.nil_prefix
  rw [FileTree.get?_move_append (by simp) goal, stages.inside]

/-- What is moved from the staging directory to a free place is all there. -/
theorem publishes_move (apart : Apart (above ++ [name]) root)
    (free : ∀ rest, rest ≠ [] → world.tree.get? (root ++ rest) = none)
    (fits : ∀ other, world.tree.get? root = some other → other.isDirectory = true)
    (opened : world.tree.IsOpen root.dropLast) :
    Publishes new start root contents
      { world with tree := world.tree.move (above ++ [name]) root } where
  builds := by
    refine ⟨?_, stages.builds.current_eq, stages.builds.letters_eq⟩
    apply stages.builds.grows.move stages.isSound.isClosed stages.vacant
      (fun rest filled => stages.get?_start_of_free (free rest filled)) _ stages.get?_ne_link apart
      opened
    intro node found
    have directory := fits node (stages.builds.grows.kept found)
    cases node with
    | directory => exact stages.holds.found
    | file bytes => exact nomatch directory
    | link target => exact nomatch directory
  unfilled := by
    rintro ⟨rest, filled, present⟩
    exact present (stages.get?_start_of_free (free rest filled))
  isDirectory := by
    have moved := stages.get?_move_root apart []
    rwa [List.append_nil, ← stages.inside, List.append_nil, stages.holds.found] at moved
  elsewhere place outside := by
    by_cases below : above ++ [name] <+: place
    · left
      rw [stages.get?_start below]
      exact FileTree.get?_move_source (by simp) apart below
    · rw [FurnishesAt, FileTree.get?_move below outside]
      exact stages.elsewhere place below
  inside := stages.get?_move_root apart

/-- Without the staging directory, everything is as before. -/
theorem furnishes_erase :
    start.Furnishes new { world with tree := world.tree.erase (above ++ [name]) } where
  toBuilds := stages.builds_erase
  furnishes place := by
    by_cases below : above ++ [name] <+: place
    · left
      rw [stages.get?_start below]
      exact FileTree.get?_erase_below (by simp) below
    · rw [FurnishesAt, FileTree.get?_erase below]
      exact stages.elsewhere place below

end Stages

theorem StagesSome.furnishes_removeTree (staged : StagesSome new start staging above name world) :
    start.Furnishes new ((Action.request (.removeTree staging)).run world).2 := by
  obtain ⟨contents, stages⟩ := staged
  rw [stages.run_removeTree]
  exact stages.furnishes_erase

/-- Once a staging directory is removed, the package has come to its place. -/
theorem Lands.settles (lands : Lands new start staging above name root unpacked world)
    (fresh : start.IsFresh staging above name) :
    Settles new start root unpacked ((Action.request (.removeTree staging)).run world).2 := by
  cases lands with
  | published contents whole publishes gone =>
      have approaches := publishes.builds.approaches fresh.approaches
      rw [Storage.run_removeTree_of_vacant approaches gone]
      exact .published contents whole publishes
  | kept filled staged => exact .kept filled staged.furnishes_removeTree

end World

namespace Storage

open World (HasPlainCache Lands Publishes Settles Stages StagesAll StagesSome)

variable {first start world : World} {cache staging : Path} {top : Location} {name : String}
  {package : PackageUri} {contents : Contents} {unpacked : Option Contents} {archive : ByteArray}

/-! ## Publishing -/

section

variable (has : first.HasPlainCache cache top) (begun : first.Builds start)
  (hosted : package.authority ≠ "..")

include has begun hosted

/-- Creating the directory above a package leaves the staging directory alone. -/
theorem ensures_createParent_published :
    Ensures (Stages (IsScaffold top package) start staging (top ++ ["tmp"]) name contents)
      (createParent (package.cachePath cache))
      (fun _ => Stages (IsScaffold top package) start staging (top ++ ["tmp"]) name contents)
      (StagesSome (IsScaffold top package) start staging (top ++ ["tmp"]) name) := by
  intro world stages
  have continues := package.continues_cachePath has.isAccepted.filled
  have onward := package.double_not_mem_keptPlace hosted
  rw [package.keptPlace_eq] at continues
  obtain ⟨above, found, nearer⟩ :=
    continues.exists_parent? (package.isName_keptName "").2.2
  have climbs : ".." ∉ package.keptPlace.dropLast :=
    fun member => onward ((List.dropLast_prefix _).subset member)
  have enters := (has.enters.of_builds begun).of_builds stages.builds
  have remains {after : World}
      (furnishes : world.Furnishes (IsAlong top package.keptPlace.dropLast) after) :=
    stages.of_furnishes_aside (furnishes.mono fun _ => .inl) fun _ => not_isScaffold_staged
  rw [createParent, found]
  refine (Attempt.ensures_createDirectories_along _ stages.isSound_after enters nearer climbs
    world rfl).imp ?_ ?_
  · rintro - after ⟨furnishes, -⟩
    exact remains furnishes
  · intro after furnishes
    exact ⟨contents, remains furnishes⟩

variable
  (stages : Stages (IsScaffold top package) start staging (top ++ ["tmp"]) name contents world)

include stages

/-- Where the directory of a package is found, it is at its place. -/
theorem find_cachePath {follow : Bool} {destination : FileTree.Destination}
    (found : world.tree.find follow world.current (package.cachePath cache) = .ok destination) :
    destination.location = top ++ package.keptPlace ∧
      Passes (package.cachePath cache) package.keptPlace := by
  have continues := package.continues_cachePath has.isAccepted.filled
  have onward := package.double_not_mem_keptPlace hosted
  have enters := (has.enters.of_builds begun).of_builds stages.builds
  constructor
  · exact enters.location_eq continues package.keptPlace_ne_nil onward found
  · exact enters.passes_of_find continues onward found

/-- What is moved to the place of a package is published. -/
theorem publishes_of_rename {tree : FileTree}
    (done : world.tree.rename world.current staging (package.cachePath cache) = .ok tree) :
    Publishes (IsScaffold top package) start (top ++ package.keptPlace) contents
        { world with tree } ∧
      tree.get? (top ++ ["tmp"] ++ [name]) = none ∧
      Passes (package.cachePath cache) package.keptPlace := by
  have sound := stages.isSound_after
  obtain ⟨source, node, destination, found, reached, outcome⟩ :=
    FileTree.exists_of_rename sound.isClosed sound.isOpen done
  rw [stages.holds.findNode_eq] at found
  obtain ⟨rfl, rfl⟩ := Prod.mk.inj (Except.ok.inj found)
  obtain ⟨located, passes⟩ := find_cachePath has begun hosted stages reached
  obtain ⟨held, opened⟩ := FileTree.found_of_find sound.isOpen reached
  rw [located] at outcome held opened
  rcases outcome with ⟨same, -⟩ | ⟨rfl, apart, free, fits⟩
  · have start : top ++ ["tmp"] ++ [name] <+: top ++ package.keptPlace := by rw [same]
    exact absurd start staged_not_prefix
  · rw [← held] at fits
    exact ⟨stages.publishes_move apart free fits opened,
      FileTree.get?_move_source (by simp) apart (List.prefix_refl _), passes⟩

/-- Where a package cannot be moved to its place and a directory is there, something is in it. -/
theorem isFilled_of_rename {refusal : OsError}
    (refused : world.tree.rename world.current staging (package.cachePath cache) = .error refusal)
    (found : world.tree.isDirectory world.current (package.cachePath cache) = .ok true) :
    start.tree.IsFilled (top ++ package.keptPlace) ∧
      Passes (package.cachePath cache) package.keptPlace := by
  have sound := stages.isSound_after
  obtain ⟨⟨place, node⟩, searched, directory⟩ := Result.map_eq_ok_iff.mp found
  have reached := FileTree.find_of_findNode searched
  obtain ⟨located, passes⟩ := find_cachePath has begun hosted stages reached
  have there : world.tree.get? (top ++ package.keptPlace) = some .directory := by
    obtain rfl : place = top ++ package.keptPlace := located
    rw [FileTree.get?_of_findNode sound.isOpen searched]
    cases node with
    | directory => rfl
    | file bytes => exact nomatch directory
    | link target => exact nomatch directory
  have isName := package.isName_keptName ""
  have slashless := package.slash_not_mem_keptName (by decide : '/' ∉ "".toList)
  obtain ⟨base, joined⟩ := package.exists_cachePath_join cache
  obtain ⟨goal, approaches⟩ := FileTree.exists_approaches isName slashless (joined ▸ reached)
  rw [← joined] at approaches
  have looked := approaches.find_unfollowed
  obtain ⟨same, -⟩ := find_cachePath has begun hosted stages looked
  rw [FileTree.location_lookAt] at same
  rw [same, FileTree.lookAt, there] at looked
  have named : FileTree.endsWithName (package.cachePath cache) = true := by
    rw [joined, FileTree.endsWithName, Path.names_join_name isName slashless,
      List.getLast?_concat]
    simp [isName.2.1, isName.2.2]
  -- both paths are found, and neither place is in the way of the other one, so what stands in the
  -- way is in the directory; the scaffold does not reach into it, so it was there before
  have filled := FileTree.children_ne_nil_of_rename stages.holds.findNode_eq looked named
    staged_not_prefix refused
  obtain ⟨⟨child, held⟩, member⟩ := List.exists_mem_of_ne_nil _ filled
  refine ⟨⟨[child], List.cons_ne_nil _ _, ?_⟩, passes⟩
  rw [← (stages.elsewhere _ staged_not_prefix_append).get?_eq not_isScaffold_append]
  exact FileTree.get?_ne_none_of_mem_children member

omit stages

/-- A package that is published is in its place, where it was not found before, unless something was
there. -/
theorem ensures_publish_settled :
    Ensures (StagesAll (IsScaffold top package) start staging (top ++ ["tmp"]) name unpacked)
      (publish staging (package.cachePath cache))
      (fun _ world => Passes (package.cachePath cache) package.keptPlace ∧
        Lands (IsScaffold top package) start staging (top ++ ["tmp"]) name
          (top ++ package.keptPlace) unpacked world)
      (StagesSome (IsScaffold top package) start staging (top ++ ["tmp"]) name) := by
  rintro world ⟨contents, whole, stages⟩
  suffices ensures : Ensures
      (Stages (IsScaffold top package) start staging (top ++ ["tmp"]) name contents)
      (publish staging (package.cachePath cache)) _ _ from ensures world stages
  unfold publish
  refine .bind _ (ensures_createParent_published has begun hosted) fun _ => ?_
  refine .lift_bind fun world stages => ?_
  have asked : (Action.request (.rename staging (package.cachePath cache))).run world =
      world.change (·.rename · staging (package.cachePath cache)) := rfl
  rw [asked, World.change]
  cases done : world.tree.rename world.current staging (package.cachePath cache) with
  | ok tree =>
      obtain ⟨publishes, gone, passes⟩ := publishes_of_rename has begun hosted stages done
      exact .pure_at ⟨passes, .published contents whole publishes gone⟩
  | error refusal =>
      refine .lift_bind_at ?_
      rw [Action.run_leadsToDirectory]
      by_cases found : world.tree.isDirectory world.current (package.cachePath cache) = .ok true
      · obtain ⟨filled, passes⟩ := isFilled_of_rename has begun hosted stages done found
        simp only [found, decide_true, if_true]
        exact .pure_at ⟨passes, .kept filled ⟨contents, stages⟩⟩
      · simp only [found, decide_false]
        exact .throw_at ⟨contents, stages⟩

theorem ensures_extract_publish_settled [ArchiveReader] (archive : ByteArray) :
    Ensures (Stages (IsScaffold top package) start staging (top ++ ["tmp"]) name .empty)
      (extract package archive staging >>= fun _ => publish staging (package.cachePath cache))
      (fun _ world => ∃ entries, openArchive package archive = .ok entries ∧
        Passes (package.cachePath cache) package.keptPlace ∧
        Lands (IsScaffold top package) start staging (top ++ ["tmp"]) name
          (top ++ package.keptPlace) (ArchiveEntry.unpacked? entries) world)
      (StagesSome (IsScaffold top package) start staging (top ++ ["tmp"]) name) := by
  refine .bind _ (ensures_extract_staged archive) fun _ => ?_
  rintro world ⟨entries, opened, staged⟩
  exact (ensures_publish_settled has begun hosted world staged).imp
    (fun _ after held => ⟨entries, opened, held⟩) fun _ => id

/-- However it ends, the staging directory is gone afterwards. -/
theorem ensures_clearing_settled [ArchiveReader] (archive : ByteArray)
    (fresh : start.IsFresh staging (top ++ ["tmp"]) name) :
    Ensures (Stages (IsScaffold top package) start staging (top ++ ["tmp"]) name .empty)
      (clearing staging do
        extract package archive staging
        publish staging (package.cachePath cache))
      (fun _ world => ∃ entries, openArchive package archive = .ok entries ∧
        Passes (package.cachePath cache) package.keptPlace ∧
        Settles (IsScaffold top package) start (top ++ package.keptPlace)
          (ArchiveEntry.unpacked? entries) world)
      (start.Furnishes (IsScaffold top package)) := by
  apply ensures_clearing (ensures_extract_publish_settled has begun hosted archive)
  · rintro world ⟨entries, opened, passes, lands⟩
    exact ⟨entries, opened, passes, lands.settles fresh⟩
  · exact fun world => World.StagesSome.furnishes_removeTree

end

/-! ## Materializing -/

section

variable (has : first.HasPlainCache cache top) (hosted : package.authority ≠ "..")

include has hosted

theorem ensures_materialize_settled [ArchiveReader] (archive : ByteArray) :
    Ensures (· = first) (materialize cache package archive)
      (fun root world => root = package.cachePath cache ∧
        ∃ entries, openArchive package archive = .ok entries ∧
          Passes (package.cachePath cache) package.keptPlace ∧
          Settles (IsScaffold top package) first (top ++ package.keptPlace)
            (ArchiveEntry.unpacked? entries) world)
      (first.Furnishes (IsScaffold top package)) := by
  have area : (stagingArea cache).Continues cache ["tmp"] :=
    (Path.Continues.refl cache).join has.isAccepted.filled (by decide)
  have scaffold {after : World} (furnishes : first.Furnishes (IsAlong top ["tmp"]) after) :
      first.Furnishes (IsScaffold top package) after :=
    furnishes.mono fun _ along => .inr (isAlong_tmp_iff.mp along)
  unfold materialize
  refine .bind (fun _ => first.Furnishes (IsScaffold top package)) ?_ fun _ => ?_
  · intro world same
    exact (Attempt.ensures_createDirectories_along _ has.isSound has.enters area (by decide)
      world same).imp (fun _ after held => scaffold held.1) fun after => scaffold
  refine .lift_bind fun second furnishes => ?_
  have sound := furnishes.isSound has.isSound
  rcases Action.createTemporaryDirectory_cases sound (stagingArea cache) with
    ⟨cause, used, ran⟩ | ⟨staging, above, name, used, joined, fresh, ran⟩ <;> rw [ran]
  · exact .throw_at ⟨⟨furnishes.grows, furnishes.current_eq, furnishes.letters_eq⟩,
      furnishes.furnishes⟩
  obtain rfl : above = top ++ ["tmp"] := has.above_eq furnishes.toBuilds (joined ▸ fresh)
  -- the staging directory is compared with the world right before it was created, in which its
  -- name is free; the scaffold that was put up until then is added at the end
  have cleared := (ensures_clearing_settled has furnishes.toBuilds hosted archive fresh).mono
    fun world (same : world = _) => same ▸ World.stages_of_isFresh sound fresh used
  refine .bind _ (fun world same => (cleared world same).imp (fun _ _ => id)
    fun after => furnishes.trans) fun _ => .pure ?_
  rintro world ⟨entries, opened, passes, settles⟩
  exact ⟨rfl, entries, opened, passes,
    settles.of_furnishes furnishes fun _ => not_isScaffold_append⟩

omit hosted in
/-- A package that has come to its place is found there. -/
theorem findNode_cachePath (builds : first.Builds world)
    (passes : Passes (package.cachePath cache) package.keptPlace)
    (there : world.tree.get? (top ++ package.keptPlace) = some .directory) :
    world.tree.findNode true world.current (package.cachePath cache) =
      .ok (top ++ package.keptPlace, .directory) := by
  have enters := has.enters.of_builds builds
  have opened := builds.grows.isClosed.isOpen there
  obtain ⟨base, joined⟩ := package.exists_cachePath_join cache
  have continues := package.continues_cachePath has.isAccepted.filled
  rw [package.keptPlace_eq, joined] at continues passes
  rw [package.keptPlace_eq, ← List.append_assoc] at there opened ⊢
  rw [joined]
  have slashless := package.slash_not_mem_keptName (by decide : '/' ∉ "".toList)
  have approaches := enters.approaches continues (package.isName_keptName "") slashless passes
    (fun other start => opened other (start.trans (List.prefix_append _ _)))
  have holds : world.Holds (base.join ⟨package.keptName ""⟩) _ _ _ := ⟨approaches, there⟩
  have plain (target : String) : FileNode.directory ≠ .link target := FileNode.noConfusion
  rw [FileTree.findNode, holds.find_eq plain]

end

end Storage

/-! ## All or nothing -/

/-- Materializing a package is all or nothing.  There is a cache directory, reached in any way, and
no links are below it.  Whatever the archive and however it ends, everything in the staging area is
as before, so the staging directory is gone.  If it fails, all files are as before, up to new
directories above the place of the package and the staging area itself.  If it succeeds, the path
that it gives leads to the directory of the package.  If something was in there before, all files
are as before, up to the same directories.  Otherwise everything outside of it is, and in it is
exactly what the entries of the archive unpack to in their order. -/
theorem package_materialized_all_or_nothing [ArchiveReader] (world : World) (cache : Path)
    (top : Location)
    (package : PackageUri) (archive : ByteArray) (has : world.HasPlainCache cache top)
    (hosted : package.authority ≠ "..") :
    let root := top ++ package.keptPlace
    let ran := (Storage.materialize cache package archive).runIn world
    (∀ name rest, ran.2.tree.get? (top ++ ["tmp"] ++ [name] ++ rest) =
      world.tree.get? (top ++ ["tmp"] ++ [name] ++ rest)) ∧
    match ran with
    | (.error _, after) =>
        FileTree.Furnishes (IsScaffold top package) world.tree after.tree
    | (.ok path, after) =>
        path = package.cachePath cache ∧
        after.tree.findNode true after.current path = .ok (root, .directory) ∧
        (world.tree.IsFilled root →
          FileTree.Furnishes (IsScaffold top package) world.tree after.tree) ∧
        (¬ world.tree.IsFilled root → ∃ entries contents,
          Storage.openArchive package archive = .ok entries ∧
          ArchiveEntry.unpacked? entries = some contents ∧
          (∀ rest, after.tree.get? (root ++ rest) = contents rest) ∧
          ∀ place, ¬ root <+: place →
            FurnishesAt (IsScaffold top package) world.tree after.tree place) := by
  intro root ran
  have ends : Attempt.Ends _ _ ran :=
    Storage.ensures_materialize_settled has hosted archive world rfl
  generalize ran = ended at ends ⊢
  cases ends with
  | error furnishes =>
      constructor
      · exact fun name rest => (furnishes.furnishes _).get?_eq not_isScaffold_staged
      · exact furnishes.furnishes
  | ok settled =>
      obtain ⟨rfl, entries, opened, passes, settles⟩ := settled
      refine ⟨?_, rfl, ?_, ?_, ?_⟩
      · exact fun name rest => (settles.furnishesAt kept_not_prefix).get?_eq not_isScaffold_staged
      · exact Storage.findNode_cachePath has settles.builds passes (settles.get?_eq has.isSound)
      · intro filled
        cases settles with
        | published contents whole publishes => exact absurd filled publishes.unfilled
        | kept _ furnishes => exact furnishes.furnishes
      · intro unfilled
        cases settles with
        | published contents whole publishes =>
            exact ⟨entries, contents, opened, whole, publishes.inside, publishes.elsewhere⟩
        | kept filled _ => exact absurd filled unfilled

namespace Storage

theorem hasPlainCache_shelf : shelf.HasPlainCache ⟨"/cache"⟩ ["cache"] where
  isSound := isSound_shelf
  isPlaced := List.forall_mem_nil _
  findNode_eq := by rfl
  isPlainBelow rest target filled found :=
    nomatch (shelf_hasRoom.unused rest filled).symm.trans found

theorem keptPlace_birds : PackageUri.birds.keptPlace =
    ["package-1", "localhost:0", "birds@1.0.0"] := by
  decide +kernel

/-- The twig comes to its place with its file, and the stray file to no place. -/
theorem twig_materialized_whole :
    (∃ after, (materialize ⟨"/cache"⟩ .birds twig).runIn shelf =
        (.ok ⟨"/cache/package-1/localhost:0/birds@1.0.0"⟩, after) ∧
      after.tree.get? ["cache", "package-1", "localhost:0", "birds@1.0.0", "a"] ≠ none ∧
      after.tree.get? ["cache", "tmp", "package-0"] = none) ∧
    ∃ failure after, (materialize ⟨"/cache"⟩ .birds strayArchive).runIn shelf =
        (.error failure, after) ∧
      FileTree.Furnishes (IsScaffold ["cache"] .birds) shelf.tree after.tree := by
  have hosted : PackageUri.birds.authority ≠ ".." := by decide
  constructor
  · have done : ((materialize ⟨"/cache"⟩ .birds twig).runIn shelf).1 =
        .ok ⟨"/cache/package-1/localhost:0/birds@1.0.0"⟩ := by decide +kernel
    have outcome := package_materialized_all_or_nothing shelf ⟨"/cache"⟩ ["cache"] .birds twig
      hasPlainCache_shelf hosted
    rcases ran : (materialize ⟨"/cache"⟩ .birds twig).runIn shelf with ⟨result, after⟩
    simp only [ran] at outcome done
    subst done
    obtain ⟨staged, -, -, -, whole⟩ := outcome
    have unfilled : ¬ shelf.tree.IsFilled (["cache"] ++ PackageUri.birds.keptPlace) := by
      rintro ⟨rest, -, present⟩
      rw [List.append_assoc] at present
      exact present (shelf_hasRoom.unused _ (by rw [keptPlace_birds]; simp))
    obtain ⟨entries, contents, opened, unpacked, inside, -⟩ := whole unfilled
    have leaf : ((openArchive .birds twig).toOption.bind ArchiveEntry.unpacked?).any
        (fun contents => (contents ["a"]).isSome) = true := by decide +kernel
    have named : (contents ["a"]).isSome = true := by
      rwa [opened, Except.toOption, Option.bind_some, unpacked, Option.any_some] at leaf
    have there := inside ["a"]
    rw [keptPlace_birds] at there
    refine ⟨after, rfl, ?_, staged "package-0" []⟩
    rw [← Option.isSome_iff_ne_none, ← named, ← there]
    rfl
  · have failed : ((materialize ⟨"/cache"⟩ .birds strayArchive).runIn shelf).1.toOption = none := by
      decide +kernel
    have outcome := package_materialized_all_or_nothing shelf ⟨"/cache"⟩ ["cache"] .birds
      strayArchive hasPlainCache_shelf hosted
    rcases ran : (materialize ⟨"/cache"⟩ .birds strayArchive).runIn shelf with ⟨result, after⟩
    simp only [ran] at outcome failed
    cases result with
    | error failure => exact ⟨failure, after, rfl, outcome.2⟩
    | ok path => exact nomatch failed

/-- A package whose authority leads back from the packages to the cache directory. -/
def cuckoo : PackageUri :=
  .release ".." "/tmp/cuckoo" (by decide) (by decide)

/-- The cuckoo comes to a place in the staging area and stays there. -/
theorem cuckoo_left_in_staging_area :
    PackageUri.parse "package://../tmp/cuckoo@1.0.0" = .ok cuckoo ∧
      ∃ path after, (materialize ⟨"/cache"⟩ cuckoo PackageUri.emptyArchive).runIn shelf =
          (.ok path, after) ∧
        ¬ ∀ name rest, after.tree.get? (["cache"] ++ ["tmp"] ++ [name] ++ rest) =
          shelf.tree.get? (["cache"] ++ ["tmp"] ++ [name] ++ rest) := by
  have done : ((materialize ⟨"/cache"⟩ cuckoo PackageUri.emptyArchive).runIn shelf).1 =
      .ok ⟨"/cache/package-1/../tmp/cuckoo@1.0.0"⟩ := by decide +kernel
  have there : (((materialize ⟨"/cache"⟩ cuckoo PackageUri.emptyArchive).runIn shelf).2.tree.get?
      ["cache", "tmp", "cuckoo@1.0.0"]).isSome = true := by decide +kernel
  rcases ran : (materialize ⟨"/cache"⟩ cuckoo PackageUri.emptyArchive).runIn shelf with
    ⟨result, after⟩
  rw [ran] at done there
  simp only at done there
  subst done
  refine ⟨by decide +kernel, _, after, rfl, fun staged => ?_⟩
  have same : after.tree.get? ["cache", "tmp", "cuckoo@1.0.0"] = none := staged "cuckoo@1.0.0" []
  rw [same] at there
  exact nomatch there

end Storage

end PackageResolution

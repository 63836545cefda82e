import PackageResolution.Proofs.Storage.Placement

/-!
# What is kept stays kept

A metadata document is at its place in the cache once it is stored, and a package at its place once
it is kept.  Keeping the package, whether it succeeds or fails, leaves the document where it is.
-/

namespace PackageResolution

open Attempt (Ensures)
open World (Adds Builds HasEmptyCache Holds)

namespace Storage

variable {start world : World} {cache path : Path} {above top : Location}
  {name : String} {package : PackageUri}

theorem ensures_createParent {before : World → Prop} (path : Path)
    (lasting : World.IsLasting before) :
    Ensures before (createParent path) (fun _ => before) before := by
  unfold createParent
  split
  · exact Attempt.ensures_createDirectories _ _ lasting
  · exact .pure fun _ => id

theorem ensures_createStagingArea {before : World → Prop} (cache : Path)
    (lasting : World.IsLasting before) :
    Ensures before (createStagingArea cache) (fun _ => before) before :=
  Attempt.ensures_createDirectories _ _ lasting

/-! ## Documents -/

/-- A document is written to a temporary file and then moved to its place. -/
theorem ensures_writeThrough (has : start.HasEmptyCache cache top) (directory : Path)
    (document : ByteArray) (create write move : IoTask) :
    Ensures start.Builds
      (Attempt.writeThrough directory (package.metadataCachePath cache) document create write move)
      (fun _ world => start.Builds world ∧ ∃ goal,
        world.Holds (package.metadataCachePath cache) goal (package.keptName ".json")
          (.file document))
      start.Builds := by
  unfold Attempt.writeThrough
  refine .lift_bind fun world builds => ?_
  rcases Action.createTemporaryFile_cases (builds.isSound has.isSound) directory with
    ⟨cause, used, ran⟩ | ⟨temporary, above, name, used, fresh, ran⟩ <;> rw [ran]
  · exact .throw_at ⟨builds.grows, builds.current_eq, builds.letters_eq⟩
  refine .lift_bind_at ?_
  have created : Adds start temporary above name (.file .empty) { world with
      tree := world.tree.insert (above ++ [name]) (.file .empty), lettersUsed := used } := by
    apply World.adds_of_isFresh has.isSound builds fresh
    exact nofun
  obtain ⟨after, ran, written⟩ := created.adds_write document
  rw [ran]
  refine .lift_bind_at ?_
  have asked : (Action.request (.rename temporary (package.metadataCachePath cache))).run after =
      after.change (·.rename · temporary (package.metadataCachePath cache)) := rfl
  rw [asked, World.change]
  cases done : after.tree.rename after.current temporary (package.metadataCachePath cache) with
  | ok tree =>
      exact .pure_at (has.exists_holds_document written done)
  | error refusal =>
      refine .lift_bind_at ?_
      rw [written.run_removeFile]
      exact .throw_at written.builds_erase

theorem ensures_storeMetadata (has : start.HasEmptyCache cache top) (document : ByteArray) :
    Ensures start.Builds (storeMetadata cache package document)
      (fun _ world => start.Builds world ∧ ∃ goal,
        world.Holds (package.metadataCachePath cache) goal (package.keptName ".json")
          (.file document))
      start.Builds := by
  unfold storeMetadata
  refine .bind _ (ensures_createParent _ has.isSound.isLasting) fun _ => ?_
  refine .bind _ (ensures_createStagingArea cache has.isSound.isLasting) fun _ => ?_
  exact ensures_writeThrough has _ document _ _ _

/-- A document that is found is at its place. -/
theorem ensures_loadMetadata (has : start.HasEmptyCache cache top) :
    Ensures start.Builds (loadMetadata cache package)
      (fun found world => start.Builds world ∧ ∀ document, found = some document → ∃ goal,
        world.Holds (package.metadataCachePath cache) goal (package.keptName ".json")
          (.file document))
      start.Builds := by
  unfold loadMetadata
  refine .lift_bind fun world builds => ?_
  have asked : (Action.request (.read (package.metadataCachePath cache))).run world =
      (world.tree.read world.current (package.metadataCachePath cache), world) := rfl
  rw [asked]
  cases found : world.tree.read world.current (package.metadataCachePath cache) with
  | ok document =>
      refine .pure_at ⟨builds, ?_⟩
      rintro _ ⟨⟩
      exact has.exists_holds_of_read builds found
  | error refusal =>
      cases refusal with
      | notFound =>
          exact .pure_at ⟨builds, nofun⟩
      | _ =>
          exact .throw_at builds

/-! ## Extracting -/

variable {staging : Path}

/-- An entry is written below the staging directory, which stays one. -/
theorem ensures_extractEntry (entry : ArchiveEntry) :
    Ensures (Adds start staging above name .directory) (extractEntry package staging entry)
      (fun _ => Adds start staging above name .directory)
      (Adds start staging above name .directory) := by
  have write (task : IoTask) {more : Path} (relative : more.isAbsolute = false)
      (onward : ".." ∉ FileTree.names more.text) (contents : ByteArray) :
      Ensures (Adds start staging above name .directory)
        (Attempt.files task (Action.request (.write (staging.join more) contents)))
        (fun _ => Adds start staging above name .directory)
        (Adds start staging above name .directory) :=
    .files fun world adds => adds.adds_write_join relative onward contents
  unfold extractEntry
  refine .ofResult_bind (fun _ => id) fun text read => ?_
  obtain ⟨relative, names, steps⟩ := entry.exists_names (path?_of_entryPath read)
  have onward : ".." ∉ FileTree.names text := by
    intro climbs
    have among := Path.parent_mem_steps_iff.mpr (List.mem_of_mem_filter climbs)
    rw [steps] at among
    simp at among
  split
  · exact .pure fun _ => id
  split
  · exact Attempt.ensures_createDirectories _ _ World.Adds.isLasting
  refine .bind _ (ensures_createParent _ World.Adds.isLasting) fun _ => ?_
  split
  · exact write _ relative onward _
  · exact .bind _ (write _ relative onward _) fun _ => .throw fun _ => id
  · exact .throw fun _ => id

theorem ensures_extract [ArchiveReader] (archive : ByteArray) :
    Ensures (Adds start staging above name .directory) (extract package archive staging)
      (fun _ => Adds start staging above name .directory)
      (Adds start staging above name .directory) := by
  unfold extract
  exact .ofResult_bind (fun _ => id) fun entries _ => .forM ensures_extractEntry

/-! ## Publishing -/

variable {first : World} {goal here : Location} {node : FileNode} {archive : ByteArray}

/-- A package that is published is in its place, and the staging directory is gone unless another
package was there. -/
theorem ensures_publish (has : start.HasEmptyCache cache top) (begun : start.Builds first)
    (document : first.Holds (package.metadataCachePath cache) goal (package.keptName ".json")
      node) :
    Ensures (Adds first staging here name .directory)
      (publish staging (package.cachePath cache))
      (fun _ world => first.Builds world ∧
        world.Holds (package.cachePath cache) goal (package.keptName "") .directory ∧
        (world.tree.get? (here ++ [name]) = none ∨ Adds first staging here name .directory world))
      (Adds first staging here name .directory) := by
  unfold publish
  refine .bind _ (ensures_createParent _ World.Adds.isLasting) fun _ => ?_
  refine .lift_bind fun world adds => ?_
  have asked : (Action.request (.rename staging (package.cachePath cache))).run world =
      world.change (·.rename · staging (package.cachePath cache)) := rfl
  rw [asked, World.change]
  cases done : world.tree.rename world.current staging (package.cachePath cache) with
  | ok tree =>
      obtain ⟨moved, holds, gone⟩ := has.holds_package begun document adds done
      exact .pure_at ⟨moved, holds, .inl gone⟩
  | error refusal =>
      refine .lift_bind_at ?_
      rw [Action.run_leadsToDirectory]
      by_cases found : world.tree.isDirectory world.current (package.cachePath cache) = .ok true
      · simp only [found, decide_true, if_true]
        exact .pure_at ⟨adds.builds, has.holds_of_isDirectory (begun.trans adds.builds)
          (document.of_builds adds.builds) found, .inr adds⟩
      · simp only [found, decide_false]
        exact .throw_at adds

/-! ## Keeping -/

/-- Whatever is done in it, the staging directory is removed. -/
theorem ensures_clearing {before after failed afterward refused : World → Prop}
    {attempt : Attempt Unit} (ensures : Ensures before attempt (fun _ => after) failed)
    (cleared : ∀ world, after world →
      afterward ((Action.request (.removeTree staging)).run world).2)
    (undone : ∀ world, failed world →
      refused ((Action.request (.removeTree staging)).run world).2) :
    Ensures before (clearing staging attempt) (fun _ => afterward) refused := by
  intro world held
  have outcome := ensures world held
  rw [runIn_clearing]
  generalize attempt.runIn world = ran at outcome ⊢
  cases outcome with
  | ok holds => exact .ok (cleared _ holds)
  | error fails => exact .error (undone _ fails)

/-- Removing what was put together elsewhere leaves a package in its place. -/
theorem holds_removeTree (document : first.Holds (package.metadataCachePath cache) goal
      (package.keptName ".json") node) (filled : cache.text ≠ "")
    (holds : world.Holds (package.cachePath cache) goal (package.keptName "") .directory)
    (adds : Adds first staging here name .directory world) :
    World.Holds ((Action.request (.removeTree staging)).run world).2 (package.cachePath cache) goal
      (package.keptName "") .directory := by
  rw [adds.run_removeTree]
  have approaches := document.approaches_cachePath filled holds.approaches.isAccepted
  refine ⟨adds.builds_erase.approaches approaches, ?_⟩
  -- the names differ by the `@`, and nothing new is above the directory of the document
  have outside : ¬ here ++ [name] <+: goal ++ [package.keptName ""] := by
    intro start
    rcases List.prefix_concat_iff.mp start with same | above
    · have names := (List.append_inj' same rfl).2
      rw [List.cons.injEq] at names
      exact adds.unmarked (names.1 ▸ package.at_mem_keptName "")
    · have directory := document.approaches.isOpen adds.isSound.isOpen _ above
      exact nomatch adds.vacant.symm.trans directory
  simp only
  rw [FileTree.get?_erase outside]
  exact holds.found

/-- Where nothing is in its place, there is nothing to remove. -/
theorem run_removeTree_of_vacant
    (approaches : world.tree.Approaches world.current staging here name)
    (gone : world.tree.get? (here ++ [name]) = none) :
    ((Action.request (.removeTree staging)).run world).2 = world := by
  have refused : world.tree.removeTree world.current staging = .error .notFound := by
    rw [FileTree.removeTree, FileTree.findNode, approaches.find_unfollowed, FileTree.lookAt, gone]
    rfl
  have asked : (Action.request (.removeTree staging)).run world =
      world.change (·.removeTree · staging) := rfl
  simp only [asked, World.change, refused]

/-- Keeping a package puts it in its place beside its metadata document, and changes nothing that
was there before. -/
theorem ensures_materialize [ArchiveReader] (has : start.HasEmptyCache cache top)
    (begun : start.Builds first)
    (document : first.Holds (package.metadataCachePath cache) goal (package.keptName ".json")
      node) :
    Ensures first.Builds (materialize cache package archive)
      (fun root world => root = package.cachePath cache ∧ first.Builds world ∧
        world.Holds (package.cachePath cache) goal (package.keptName "") .directory)
      first.Builds := by
  have soundFirst := begun.isSound has.isSound
  unfold materialize
  refine .bind _ (ensures_createStagingArea cache soundFirst.isLasting) fun _ => ?_
  refine .lift_bind fun second builds => ?_
  have sound := builds.isSound soundFirst
  rcases Action.createTemporaryDirectory_cases sound (stagingArea cache) with
    ⟨cause, used, ran⟩ | ⟨staging, here, name, used, -, fresh, ran⟩ <;> rw [ran]
  · exact .throw_at ⟨builds.grows, builds.current_eq, builds.letters_eq⟩
  -- from here on worlds are compared with the one before the staging directory was created, in
  -- which the way to its place is open already: the place is still found once nothing is there
  have there := document.of_builds builds
  have published : Ensures (Adds second staging here name .directory)
      (extract package archive staging >>= fun _ => publish staging (package.cachePath cache)) _ _ :=
    (ensures_extract archive).bind _ fun _ => ensures_publish has (begun.trans builds) there
  refine .bind (fun _ world => second.Builds world ∧ world.Holds (package.cachePath cache) goal
    (package.keptName "") .directory) ((ensures_clearing published ?_ ?_).mono ?_) fun _ => ?_
  · rintro world ⟨later, holds, gone | adds⟩
    · rw [run_removeTree_of_vacant (later.approaches fresh.approaches) gone]
      exact ⟨later, holds⟩
    · refine ⟨?_, holds_removeTree there has.isAccepted.filled holds adds⟩
      rw [adds.run_removeTree]
      exact adds.builds_erase
  · intro world adds
    rw [adds.run_removeTree]
    exact builds.trans adds.builds_erase
  · rintro _ rfl
    apply World.adds_of_isFresh sound (.refl sound) fresh
    exact nofun
  · exact .pure fun world held => ⟨rfl, builds.trans held.1, held.2⟩

theorem runIn_package? (world : World) :
    ((disk cache).package? package).runIn world =
      (.ok (if world.tree.isDirectory world.current (package.cachePath cache) = .ok true then
        some (.extracted (package.cachePath cache)) else none), world) := by
  have looked : (storedRoot? cache package).run world =
      (if world.tree.isDirectory world.current (package.cachePath cache) = .ok true then
        some (package.cachePath cache) else none, world) := by
    simp only [storedRoot?, Action.run_bind, Action.run_leadsToDirectory]
    split <;> simp_all
  simp only [package?, Attempt.runIn_bind, Attempt.runIn_lift, looked]
  split <;> rfl

end Storage

end PackageResolution
